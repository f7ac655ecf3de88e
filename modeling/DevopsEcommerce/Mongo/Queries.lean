import DevopsEcommerce.Mongo.Collection
import Mathlib.Algebra.BigOperators.Group.List.Lemmas
import Mathlib.Algebra.BigOperators.Group.Finset.Basic
import Mathlib.Algebra.GroupWithZero.Nat

/-!
# Queries over a collection

The commands that only read: counting, finding with options, and grouping by one field. A cursor
hands its results out one after the other, and each of them can be an error. In what order the
groups come is not told.
-/

namespace Mongo

/-- `skip` and `limit` -/
structure FindOptions where
  skip : UInt64
  limit : Int64
deriving DecidableEq

/-- A result of `$group` with `count: { $sum: 1 }`. The `_id` is `null` for the documents without
the field. -/
structure Group where
  id : Option Bson
  count : ℕ
deriving DecidableEq

/-- `get_i32("_id")` -/
def Group.getId (g : Group) : Except ValueAccessError ℤ :=
  match g.id with
  | some (.int32 n) => .ok n
  | _ => .error .unexpectedType

/-- `get_i32("count")`. A larger count is an `int64`. -/
def Group.getCount (g : Group) : Except ValueAccessError ℤ :=
  if g.count < 2 ^ 31 then .ok g.count else .error .unexpectedType

inductive Query where
  | countDocuments (filter : Document)
  | find (filter : Document) (options : FindOptions)
  /-- `$match`, then `$group` by the field. -/
  | aggregate (filter : Document) (key : String)

abbrev Cursor (α : Type) := List (Except DriverError α)

abbrev QueryReply : Query → Type
  | .countDocuments _ => Except DriverError UInt64
  | .find .. => Except DriverError (Cursor Document)
  | .aggregate .. => Except DriverError (Cursor Group)

/-- The documents that a filter asks for, in the order of the collection. -/
def matching (c : Collection) (filter : Document) : Collection := c.filter (·.satisfies filter)

def groups (c : Collection) (key : String) : List Group :=
  (c.map (·.get? key)).dedup.map fun id => ⟨id, c.countP fun d => d.get? key = id⟩

/-- What a driver makes of the options: whether it takes their numbers, and how large the single
batch is that a negative limit asks for. -/
structure Driver where
  takes : FindOptions → Bool
  batch : ℕ
  batch_pos : 0 < batch

/-- What is at the positions from `skip` on, and no more than the limit allows. A limit of 0 is
none. -/
def Driver.selection {α : Type} (driver : Driver) (options : FindOptions) (docs : List α) :
    List α :=
  let rest := docs.drop options.skip.toNat
  if options.limit = 0 then rest
  else if 0 < options.limit.toInt then rest.take options.limit.toInt.toNat
  else rest.take (min options.limit.toInt.natAbs driver.batch)

def Driver.find (driver : Driver) (c : Collection) (filter : Document) (options : FindOptions) :
    Except DriverError (Cursor Document) :=
  if driver.takes options then .ok ((driver.selection options (matching c filter)).map .ok)
  else .error .failed

/-- The replies about a collection that nobody writes. -/
def Driver.replies (driver : Driver) (c : Collection) : (q : Query) → QueryReply q
  | .countDocuments filter => .ok (UInt64.ofNat (matching c filter).length)
  | .find filter options => driver.find c filter options
  | .aggregate filter key => .ok ((groups (matching c filter) key).map .ok)

/-- The replies of a server on which nothing fails and nothing is written. -/
structure Answers (c : Collection) (reply : (q : Query) → QueryReply q) : Prop where
  countDocuments : ∀ filter,
    reply (.countDocuments filter) = .ok (UInt64.ofNat (matching c filter).length)
  find : ∀ filter options, ∃ docs : List Document,
    reply (.find filter options) = .ok (docs.map .ok)
  aggregate : ∀ filter key, ∃ gs : List Group,
    gs.Perm (groups (matching c filter) key) ∧ reply (.aggregate filter key) = .ok (gs.map .ok)

lemma Driver.answers (driver : Driver) (h : ∀ options, driver.takes options = true)
    (c : Collection) : Answers c (driver.replies c) where
  countDocuments _ := rfl
  find _ options := ⟨_, if_pos (h options)⟩
  aggregate _ _ := ⟨_, .refl _, rfl⟩

lemma Driver.selection_map {α β : Type} (driver : Driver) (options : FindOptions) (f : α → β)
    (docs : List α) :
    driver.selection options (docs.map f) = (driver.selection options docs).map f := by
  unfold selection
  simp only [← List.map_drop, ← List.map_take]
  split
  · rfl
  · split <;> rfl

lemma map_id_groups (c : Collection) (key : String) :
    (groups c key).map Group.id = (c.map (·.get? key)).dedup := by
  unfold groups
  rw [List.map_map]
  exact List.map_id _

lemma nodup_map_id {gs : List Group} {c : Collection} {key : String}
    (h : gs.Perm (groups c key)) : (gs.map Group.id).Nodup := by
  rw [(h.map Group.id).nodup_iff, map_id_groups]
  exact List.nodup_dedup _

/-- There is a group exactly for the values that occur. -/
lemma mem_of_perm_groups {gs : List Group} {c : Collection} {key : String}
    (h : gs.Perm (groups c key)) {g : Group} :
    g ∈ gs ↔ g.id ∈ c.map (·.get? key) ∧ g.count = c.countP fun d => d.get? key = g.id := by
  rw [h.mem_iff, groups, List.mem_map]
  constructor
  · rintro ⟨id, hid, rfl⟩
    exact ⟨List.mem_dedup.mp hid, rfl⟩
  · rintro ⟨hid, hcount⟩
    exact ⟨g.id, List.mem_dedup.mpr hid, by rw [← hcount]⟩

lemma exists_group {gs : List Group} {c : Collection} {key : String}
    (h : gs.Perm (groups c key)) {id : Option Bson} (hid : id ∈ c.map (·.get? key)) :
    ∃ g ∈ gs, g.id = id :=
  ⟨⟨id, c.countP fun d => d.get? key = id⟩, (mem_of_perm_groups h).mpr ⟨hid, rfl⟩, rfl⟩

/-- A sum over the documents of what depends on the field only is one over the groups. -/
lemma sum_map_groups {gs : List Group} {c : Collection} {key : String}
    (h : gs.Perm (groups c key)) (f : Option Bson → ℕ) :
    (gs.map fun g => g.count * f g.id).sum = (c.map fun d => f (d.get? key)).sum := by
  calc (gs.map fun g => g.count * f g.id).sum
      = ((groups c key).map fun g => g.count * f g.id).sum := (h.map _).sum_eq
    _ = ((c.map (·.get? key)).dedup.map fun id =>
          (c.countP fun d => d.get? key = id) * f id).sum := by
        rw [groups, List.map_map]
        rfl
    _ = ∑ id ∈ (c.map (·.get? key)).toFinset, (c.countP fun d => d.get? key = id) * f id := by
        have hset : (c.map (·.get? key)).dedup.toFinset = (c.map (·.get? key)).toFinset := by
          ext
          simp
        rw [← hset, List.sum_toFinset _ (List.nodup_dedup _)]
    _ = (c.map fun d => f (d.get? key)).sum := by
        have hsum := Finset.sum_list_map_count (c.map (·.get? key)) f
        rw [List.map_map] at hsum
        refine Eq.trans (Finset.sum_congr rfl fun id _ => ?_) hsum.symm
        show _ = (c.map (·.get? key)).countP (fun v => decide (v = id)) * f id
        rw [List.countP_map]
        rfl

end Mongo
