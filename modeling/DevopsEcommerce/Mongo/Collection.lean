import DevopsEcommerce.Interleaving.Program
import Mathlib.Data.Int.Notation
import Mathlib.Data.List.Basic

/-!
# Document collections

Documents as a document database stores them, and the four single-document commands on a
collection without indexes. A filter is a document too: it asks for equality in each of
its fields. A command that concerns one document takes the first that matches.

`exec` is the execution of one command under a `Fault`, in the form that a pool of
programs over a collection takes.
-/

open Interleaving

namespace Mongo

inductive Bson where
  | string (s : String)
  | int32 (n : ℤ)
deriving DecidableEq

/-- The fields of a document, in their order. -/
abbrev Document := List (String × Bson)

/-- Why a typed read of a field fails. -/
inductive ValueAccessError where
  | notPresent
  | unexpectedType
deriving DecidableEq

namespace Document

/-- The value of a field. -/
def get? (d : Document) (key : String) : Option Bson := d.lookup key

def getStr (d : Document) (key : String) : Except ValueAccessError String :=
  match d.get? key with
  | some (.string s) => .ok s
  | some _ => .error .unexpectedType
  | none => .error .notPresent

def getI32 (d : Document) (key : String) : Except ValueAccessError ℤ :=
  match d.get? key with
  | some (.int32 n) => .ok n
  | some _ => .error .unexpectedType
  | none => .error .notPresent

/-- Overwrite a field where it stands, or append it. -/
def setField (key : String) (value : Bson) : Document → Document
  | [] => [(key, value)]
  | (k, v) :: d => if k = key then (k, value) :: d else (k, v) :: setField key value d

/-- `$set` -/
def set (d fields : Document) : Document :=
  fields.foldl (fun d f => setField f.1 f.2 d) d

/-- The document has the value of every field of the filter. -/
def satisfies (d filter : Document) : Bool :=
  filter.all fun f => d.get? f.1 = some f.2

@[simp] lemma get?_nil (k : String) : get? [] k = none := rfl

@[simp] lemma get?_cons (f : String × Bson) (d : Document) (k : String) :
    get? (f :: d) k = if k = f.1 then some f.2 else get? d k := by
  rw [get?, List.lookup_cons, ← get?]
  by_cases h : k = f.1
  · rw [beq_iff_eq.mpr h, if_pos h]
  · rw [beq_eq_false_iff_ne.mpr h, if_neg h]

lemma get?_setField (key : String) (value : Bson) (d : Document) (k : String) :
    (setField key value d).get? k = if k = key then some value else d.get? k := by
  induction d with
  | nil => simp [setField]
  | cons f d ih =>
    obtain ⟨k', v⟩ := f
    by_cases hk' : k' = key
    · by_cases h : k = key <;> simp [setField, hk', h]
    · by_cases h : k = k'
      · subst h
        simp [setField, hk']
      · simp [setField, hk', h, ih]

/-- `$set` leaves the fields it does not name. -/
lemma get?_set_of_not_mem {d fields : Document} {k : String}
    (h : k ∉ fields.map Prod.fst) : (d.set fields).get? k = d.get? k := by
  induction fields generalizing d with
  | nil => rfl
  | cons f fields ih =>
    rw [List.map_cons, List.mem_cons, not_or] at h
    rw [set, List.foldl_cons, ← set, ih h.2, get?_setField, if_neg h.1]

end Document

/-! ## Collections -/

abbrev Collection := List Document

def findOne (c : Collection) (filter : Document) : Option Document :=
  c.find? (·.satisfies filter)

def insertOne (c : Collection) (d : Document) : Collection := c ++ [d]

def updateOne (filter fields : Document) : Collection → Collection
  | [] => []
  | d :: c => if d.satisfies filter then d.set fields :: c else d :: updateOne filter fields c

def deleteOne (c : Collection) (filter : Document) : Collection :=
  c.eraseP (·.satisfies filter)

/-- `deleted_count`: how many documents the deletion has taken out. -/
def deletedCount (c : Collection) (filter : Document) : ℕ :=
  if (findOne c filter).isSome then 1 else 0

lemma findOne_eq_none {c : Collection} {filter : Document} :
    findOne c filter = none ↔ ∀ d ∈ c, d.satisfies filter = false := by
  simp [findOne, List.find?_eq_none]

/-- What `$set` does not change in a document, an update does not change in the
collection. -/
lemma map_updateOne {β : Type*} {f : Document → β} {fields : Document}
    (h : ∀ d : Document, f (d.set fields) = f d) (filter : Document) (c : Collection) :
    (updateOne filter fields c).map f = c.map f := by
  induction c with
  | nil => rfl
  | cons d c ih =>
    by_cases hd : d.satisfies filter
    · simp [updateOne, hd, h]
    · simp [updateOne, hd, ih]

/-- What `$set` keeps in the documents that the filter asks for, an update keeps in all. -/
lemma forall_mem_updateOne {P : Document → Prop} {filter fields : Document} {c : Collection}
    (h : ∀ d ∈ c, P d) (hset : ∀ d ∈ c, d.satisfies filter = true → P (d.set fields)) :
    ∀ d ∈ updateOne filter fields c, P d := by
  induction c with
  | nil => exact h
  | cons d c ih =>
    rw [List.forall_mem_cons] at h
    unfold updateOne
    split
    · rename_i hd
      exact List.forall_mem_cons.mpr ⟨hset d List.mem_cons_self hd, h.2⟩
    · refine List.forall_mem_cons.mpr ⟨h.1, ih h.2 fun d' hd' => ?_⟩
      exact hset d' (List.mem_cons_of_mem _ hd')

lemma deleteOne_sublist (c : Collection) (filter : Document) : (deleteOne c filter).Sublist c :=
  List.eraseP_sublist

/-- A deletion takes out one of the documents that the filter asks for, if there is one. -/
lemma countP_deleteOne (c : Collection) (filter : Document) :
    (deleteOne c filter).countP (·.satisfies filter) + deletedCount c filter =
      c.countP (·.satisfies filter) := by
  induction c with
  | nil => rfl
  | cons d c ih =>
    unfold deleteOne deletedCount findOne at ih ⊢
    by_cases hd : d.satisfies filter
    · simp [hd]
    · simpa [hd] using ih

/-- It leaves the others. -/
lemma countP_deleteOne_of_ne {p : Document → Bool} {filter : Document}
    (h : ∀ d : Document, d.satisfies filter = true → p d = false) (c : Collection) :
    (deleteOne c filter).countP p = c.countP p := by
  induction c with
  | nil => rfl
  | cons d c ih =>
    unfold deleteOne at ih ⊢
    by_cases hd : d.satisfies filter
    · simp [hd, h d hd]
    · simp [hd, List.countP_cons, ih]

/-! ## Commands -/

inductive Command where
  | findOne (filter : Document)
  | insertOne (document : Document)
  | updateOne (filter fields : Document)
  | deleteOne (filter : Document)

inductive DriverError where
  | failed
deriving DecidableEq

abbrev Reply : Command → Type
  | .findOne _ => Except DriverError (Option Document)
  | .insertOne _ => Except DriverError Unit
  | .updateOne _ _ => Except DriverError Unit
  | .deleteOne _ => Except DriverError ℕ

/-- The collection after a command. -/
def effect (c : Collection) : Command → Collection
  | .findOne _ => c
  | .insertOne d => insertOne c d
  | .updateOne filter fields => updateOne filter fields c
  | .deleteOne filter => deleteOne c filter

/-- The reply of a command that succeeds. -/
def okReply (c : Collection) : (cmd : Command) → Reply cmd
  | .findOne filter => .ok (findOne c filter)
  | .insertOne _ => .ok ()
  | .updateOne _ _ => .ok ()
  | .deleteOne filter => .ok (deletedCount c filter)

/-- The reply of a command that fails, or whose answer is lost. -/
def errorReply : (cmd : Command) → Reply cmd
  | .findOne _ => .error .failed
  | .insertOne _ => .error .failed
  | .updateOne _ _ => .error .failed
  | .deleteOne _ => .error .failed

/-- One command of any thread on the collection. -/
def exec (c : Collection) (_thread : ℕ) (cmd : Command) : Fault → Option (Collection × Reply cmd)
  | .none => some (effect c cmd, okReply c cmd)
  | .before => some (c, errorReply cmd)
  | .after => some (effect c cmd, errorReply cmd)

/-- Only a command without a fault gets a proper reply. -/
lemma exec_reply {c c' : Collection} {i : ℕ} {cmd : Command} {fault : Fault} {r : Reply cmd}
    (h : exec c i cmd fault = some (c', r)) : r = okReply c cmd ∨ r = errorReply cmd := by
  cases fault <;> simp only [exec, Option.some.injEq, Prod.mk.injEq] at h
  · exact .inl h.2.symm
  · exact .inr h.2.symm
  · exact .inr h.2.symm

/-- A command takes effect unless it fails beforehand. -/
lemma exec_store {c c' : Collection} {i : ℕ} {cmd : Command} {fault : Fault} {r : Reply cmd}
    (h : exec c i cmd fault = some (c', r)) :
    c' = if fault = .before then c else effect c cmd := by
  cases fault <;> simp_all [exec]

end Mongo
