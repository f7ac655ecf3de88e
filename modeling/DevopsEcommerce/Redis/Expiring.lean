import Mathlib.Data.List.AList

/-!
# Strings with a time to live

The string keys of Redis, as far as `SET key value EX`, `GET` and `DEL` use them: each entry has
a deadline, and from the moment it has passed the key reads as missing, whether or not Redis has
removed it yet.
-/

namespace Redis

/-- A value and the time until which it can be read. -/
structure Timed (α : Type) where
  value : α
  deadline : ℕ
deriving DecidableEq

abbrev Keys (α : Type) := AList fun _ : String => Timed α

namespace Keys
variable {α : Type}

/-- `GET` at the time `now`. -/
def get (keys : Keys α) (now : ℕ) (key : String) : Option α :=
  (keys.lookup key).bind fun entry => if entry.deadline < now then none else some entry.value

/-- `SET` with `EX`, the time to live given in the unit of the clock. -/
def set (keys : Keys α) (now : ℕ) (key : String) (value : α) (ttl : ℕ) : Keys α :=
  keys.insert key ⟨value, now + ttl⟩

/-- `DEL`; also what an eviction does. -/
def del (keys : Keys α) (key : String) : Keys α := keys.erase key

lemma get_eq_some {keys : Keys α} {now : ℕ} {key : String} {value : α} :
    keys.get now key = some value ↔
      ∃ deadline, keys.lookup key = some ⟨value, deadline⟩ ∧ now ≤ deadline := by
  unfold get
  rw [Option.bind_eq_some_iff]
  constructor
  · rintro ⟨⟨v, deadline⟩, hlookup, hvalue⟩
    split at hvalue
    · exact absurd hvalue (by simp)
    · rename_i hlive
      obtain rfl := Option.some.inj hvalue
      exact ⟨deadline, hlookup, Nat.le_of_not_lt hlive⟩
  · rintro ⟨deadline, hlookup, hlive⟩
    exact ⟨_, hlookup, if_neg (Nat.not_lt.mpr hlive)⟩

@[simp] lemma lookup_set_self (keys : Keys α) (now : ℕ) (key : String) (value : α) (ttl : ℕ) :
    (keys.set now key value ttl).lookup key = some ⟨value, now + ttl⟩ :=
  AList.lookup_insert keys

lemma lookup_set_of_ne {key key' : String} (h : key' ≠ key) (keys : Keys α) (now : ℕ) (value : α)
    (ttl : ℕ) : (keys.set now key value ttl).lookup key' = keys.lookup key' :=
  AList.lookup_insert_ne h

@[simp] lemma lookup_del_self (keys : Keys α) (key : String) :
    (keys.del key).lookup key = none :=
  AList.lookup_erase key keys

lemma lookup_del_of_ne {key key' : String} (h : key' ≠ key) (keys : Keys α) :
    (keys.del key).lookup key' = keys.lookup key' :=
  AList.lookup_erase_ne h

/-- Nothing comes into being by a deletion. -/
lemma lookup_of_del {keys : Keys α} {key key' : String} {entry : Timed α}
    (h : (keys.del key).lookup key' = some entry) : keys.lookup key' = some entry := by
  by_cases hkey : key' = key
  · rw [hkey, lookup_del_self] at h
    exact absurd h (by simp)
  · rw [← lookup_del_of_ne hkey keys]
    exact h

end Keys

end Redis
