import Mathlib.Data.List.AList
import DevopsEcommerce.ProductService.Routes

/-!
# The catalogue and the cache

The stores behind the product service: MongoDB with the catalogue, and a Redis that is up. An
entry of the cache can go at any moment, because its time is over or because Redis needs the
room; a command lets go of the keys in `vanishing` before it does anything.

`SCAN` promises to return every key that is there from its start to its end, and nothing that
does not match. What else it returns is up to Redis.

Beside the two stores there is a record of what happened, which no command reads: how often the
catalogue has changed (its *version*), on which versions a response rests, which version a write
has made, and up to which version writes have been responded to.
-/

open Interleaving

namespace DevopsEcommerce.ProductRoutes

/-- A catalogue with the commands of the routes: `none` says that a command has changed nothing,
and the environment's part in it is in `Ω`. -/
structure Database (γ Ω : Type) where
  exec : γ → (c : DbCommand) → Ω → Option γ × DbReply c
  reads_keep : ∀ g c w, c.isRead = true → (exec g c w).1 = none

/-- A cached response, with the thread that stored it and the versions that it rests on. -/
structure Entry where
  text : String
  origin : ℕ
  basis : List ℕ

structure Store (γ : Type) where
  catalogue : γ
  cache : AList fun _ : String => Entry
  /-- what a thread's `SCAN` has to return: the keys that were there all the time so far -/
  owed : ℕ → List String
  version : ℕ
  /-- the versions that the response of a thread rests on -/
  basis : ℕ → List ℕ
  /-- the version that a thread has made, or 0 -/
  written : ℕ → ℕ
  /-- the latest version whose writer has responded, or 0 -/
  acknowledged : ℕ

/-- The environment's part in a command. -/
structure Choice (Ω : Type) where
  vanishing : List String
  db : Ω
  scanned : List String

/-- The pattern of a `SCAN` matches. -/
def isUnder (keyPrefix key : String) : Bool := keyPrefix.toList.isPrefixOf key.toList

/-- The URL of a `GET` starts like the keys that the writes delete. -/
def Request.UnderPrefix : Request → Prop
  | .get url _ => isUnder cachePrefix (cacheKey url) = true
  | .write _ => True

namespace Store
variable {γ : Type}

def initial (catalogue : γ) : Store γ where
  catalogue := catalogue
  cache := ∅
  owed := fun _ => []
  version := 0
  basis := fun _ => []
  written := fun _ => 0
  acknowledged := 0

/-- These keys are gone. -/
def drop (s : Store γ) (keys : List String) : Store γ :=
  { s with
    cache := keys.foldl (fun cache key => cache.erase key) s.cache
    owed := fun i => (s.owed i).filter (· ∉ keys) }

/-- MongoDB has executed a command of thread `i`. -/
def commit (s : Store γ) (i : ℕ) : Option γ → Store γ
  | none => { s with basis := Function.update s.basis i (s.version :: s.basis i) }
  | some catalogue =>
    { s with
      catalogue := catalogue
      version := s.version + 1
      basis := Function.update s.basis i ((s.version + 1) :: s.basis i)
      written := Function.update s.written i (s.version + 1) }

/-- `GET`: a response from the cache rests on what the entry rests on. -/
def get (s : Store γ) (i : ℕ) (key : String) : Store γ × Option String :=
  match s.cache.lookup key with
  | none => (s, none)
  | some entry => ({ s with basis := Function.update s.basis i entry.basis }, some entry.text)

def set (s : Store γ) (i : ℕ) (key text : String) : Store γ :=
  { s with cache := s.cache.insert key ⟨text, i, s.basis i⟩ }

def scanStart (s : Store γ) (i : ℕ) (keyPrefix : String) : Store γ :=
  { s with owed := Function.update s.owed i (s.cache.keys.filter (isUnder keyPrefix)) }

def respond (s : Store γ) (i : ℕ) : Store γ :=
  { s with acknowledged := max s.acknowledged (s.written i) }

end Store

section
variable {γ Ω : Type} (db : Database γ Ω)

/-- A command of thread `i`, after the vanishing keys are gone. -/
def execNow (s : Store γ) (i : ℕ) : (c : Command) → Choice Ω → Option (Store γ × Reply c)
  | .db c, w => some (s.commit i (db.exec s.catalogue c w.db).1, (db.exec s.catalogue c w.db).2)
  | .get key, _ => some ((s.get i key).1, .ok (s.get i key).2)
  | .set key text _, _ => some (s.set i key text, .ok ())
  | .scanStart keyPrefix, _ => some (s.scanStart i keyPrefix, .ok ())
  | .scanEnd keyPrefix, w =>
    if s.owed i ⊆ w.scanned ∧ w.scanned.all (isUnder keyPrefix) = true then
      some (s, .ok w.scanned)
    else none
  | .del key, _ => some (s.drop [key], .ok ())
  | .respond _, _ => some (s.respond i, ())

def exec (s : Store γ) (i : ℕ) (c : Command) (w : Choice Ω) : Option (Store γ × Reply c) :=
  execNow db (s.drop w.vanishing) i c w

end

/-! ## The cache after a command -/

namespace Store
variable {γ : Type}

lemma lookup_drop (s : Store γ) (keys : List String) (key : String) :
    (s.drop keys).cache.lookup key = if key ∈ keys then none else s.cache.lookup key := by
  show (keys.foldl (fun cache key => cache.erase key) s.cache).lookup key = _
  generalize s.cache = cache
  induction keys generalizing cache with
  | nil => rfl
  | cons k keys ih =>
    rw [List.foldl_cons, ih]
    by_cases hmem : key ∈ keys
    · rw [if_pos hmem, if_pos (List.mem_cons_of_mem k hmem)]
    · rw [if_neg hmem]
      by_cases hk : key = k
      · rw [if_pos (List.mem_cons.mpr (.inl hk)), hk]
        exact AList.lookup_erase k cache
      · rw [if_neg (List.not_mem_cons_of_ne_of_not_mem hk hmem)]
        exact AList.lookup_erase_ne hk

/-- Nothing comes into the cache by being dropped. -/
lemma lookup_drop_some {s : Store γ} {keys : List String} {key : String} {entry : Entry}
    (h : (s.drop keys).cache.lookup key = some entry) :
    key ∉ keys ∧ s.cache.lookup key = some entry := by
  rw [lookup_drop, Option.ite_none_left_eq_some] at h
  exact h

lemma lookup_set (s : Store γ) (i : ℕ) (key text key' : String) :
    (s.set i key text).cache.lookup key' =
      if key' = key then some ⟨text, i, s.basis i⟩ else s.cache.lookup key' := by
  show (s.cache.insert key _).lookup key' = _
  split <;> rename_i hkey
  · rw [hkey]
    exact AList.lookup_insert s.cache
  · exact AList.lookup_insert_ne hkey

@[simp] lemma cache_commit (s : Store γ) (i : ℕ) (g : Option γ) :
    (s.commit i g).cache = s.cache := by
  cases g <;> rfl

@[simp] lemma catalogue_commit (s : Store γ) (i : ℕ) (g : Option γ) :
    (s.commit i g).catalogue = g.getD s.catalogue := by
  cases g <;> rfl

@[simp] lemma cache_get (s : Store γ) (i : ℕ) (key : String) : (s.get i key).1.cache = s.cache := by
  unfold get
  cases s.cache.lookup key <;> rfl

@[simp] lemma catalogue_get (s : Store γ) (i : ℕ) (key : String) :
    (s.get i key).1.catalogue = s.catalogue := by
  unfold get
  cases s.cache.lookup key <;> rfl

@[simp] lemma reply_get (s : Store γ) (i : ℕ) (key : String) :
    (s.get i key).2 = (s.cache.lookup key).map Entry.text := by
  unfold get
  cases s.cache.lookup key <;> rfl

lemma owed_scanStart (s : Store γ) (i : ℕ) (keyPrefix : String) :
    (s.scanStart i keyPrefix).owed i = s.cache.keys.filter (isUnder keyPrefix) :=
  Function.update_self i _ s.owed

end Store

/-! ## A small shop -/

/-- A catalogue by ids that can be looked at and deleted from. -/
def shop : Database (List (String × LeanDocument)) Unit where
  exec catalogue c _ :=
    match c with
    | .findLeanById id => (none, .ok (catalogue.lookup id))
    | .findByIdAndDelete id =>
      if (catalogue.lookup id).isSome then
        (some (catalogue.filter fun product => product.1 ≠ id), .ok (some ()))
      else (none, .ok none)
    | .find .. => (none, .error .other)
    | .countDocuments _ => (none, .error .other)
    | .aggregate => (none, .error .other)
    | .create _ => (none, .error .other)
    | .findByIdAndUpdate .. => (none, .error .other)
    | .findById _ => (none, .error .other)
    | .save .. => (none, .error .other)
  reads_keep := by
    intro g c w hc
    cases c with
    | find | countDocuments | aggregate | findLeanById | findById => rfl
    | create | findByIdAndUpdate | save | findByIdAndDelete => exact absurd hc Bool.false_ne_true

/-- The URLs of single products. -/
def productPages : Platform where
  getRoute url := .byId (String.ofList (url.toList.drop "/api/products/".length))
  number _ := none
  isRegExp _ := true
  add _ _ := .nan
  isNegative _ := false

def lampUrl : String := "/api/products/507f1f77bcf86cd799439011"

def lampId : String := "507f1f77bcf86cd799439011"

def lamp : LeanDocument where
  members := [("_id", .string lampId), ("name", .string "Lamp")]
  hasId := by decide

/-- Nothing vanishes, and a `SCAN` returns these keys. -/
def calm (scanned : List String) : Choice Unit := ⟨[], (), scanned⟩

end DevopsEcommerce.ProductRoutes
