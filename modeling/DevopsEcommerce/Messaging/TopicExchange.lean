import Mathlib.Data.List.Dedup

/-!
# Topic exchanges

What clients declare on a broker, and where a topic exchange routes a message. Binding and
routing keys are words separated by dots; in a binding key `*` stands for one word and `#`
for any number of them.

Declarations are idempotent and nothing is ever deleted. A queue gets one copy of a message
however many of its bindings match.
-/

namespace Messaging

/-! ## Keys -/

/-- The words between the dots. -/
def words : List Char → List (List Char)
  | [] => [[]]
  | c :: cs =>
    if c = '.' then [] :: words cs
    else match words cs with
      | w :: ws => (c :: w) :: ws
      | [] => [[c]]

def unwords : List (List Char) → List Char
  | [] => []
  | [w] => w
  | w :: ws => w ++ '.' :: unwords ws

def wordsMatch : List (List Char) → List (List Char) → Bool
  | [], ws => ws.isEmpty
  | p :: ps, ws =>
    if p = ['#'] then ws.tails.any (wordsMatch ps)
    else match ws with
      | [] => false
      | w :: ws => (p = ['*'] || p = w) && wordsMatch ps ws

def topicMatches (pattern key : String) : Bool :=
  wordsMatch (words pattern.toList) (words key.toList)

/-- No word of the binding key is a wildcard. -/
def IsPlain (pattern : String) : Prop :=
  ∀ w ∈ words pattern.toList, w ≠ ['#'] ∧ w ≠ ['*']

instance (pattern : String) : Decidable (IsPlain pattern) :=
  inferInstanceAs (Decidable (∀ w ∈ words pattern.toList, w ≠ ['#'] ∧ w ≠ ['*']))

lemma words_ne_nil (cs : List Char) : words cs ≠ [] := by
  cases cs with
  | nil => exact List.cons_ne_nil _ _
  | cons c cs =>
    unfold words
    split
    · exact List.cons_ne_nil _ _
    · split <;> exact List.cons_ne_nil _ _

lemma unwords_words (cs : List Char) : unwords (words cs) = cs := by
  induction cs with
  | nil => rfl
  | cons c cs ih =>
    unfold words
    cases hws : words cs with
    | nil => exact absurd hws (words_ne_nil cs)
    | cons w ws =>
      rw [hws] at ih
      split <;> rename_i hdot
      · -- a dot starts a new word
        rw [← ih, hdot]
        rfl
      · -- another character belongs to the first word
        rw [← ih]
        cases ws <;> rfl

/-- Without wildcards only the same words match. -/
lemma wordsMatch_iff_of_plain {ps : List (List Char)} (hplain : ∀ w ∈ ps, w ≠ ['#'] ∧ w ≠ ['*'])
    (ws : List (List Char)) : wordsMatch ps ws = true ↔ ps = ws := by
  induction ps generalizing ws with
  | nil => cases ws <;> simp [wordsMatch]
  | cons p ps ih =>
    obtain ⟨hhash, hstar⟩ := hplain p List.mem_cons_self
    have hrest := ih fun w hw => hplain w (List.mem_cons_of_mem _ hw)
    unfold wordsMatch
    rw [if_neg hhash]
    cases ws with
    | nil => simp
    | cons w ws => simp [hstar, hrest]

/-- A binding key without wildcards matches itself only. -/
theorem topicMatches_iff_of_plain {pattern : String} (hplain : IsPlain pattern) (key : String) :
    topicMatches pattern key = true ↔ pattern = key := by
  unfold topicMatches
  rw [wordsMatch_iff_of_plain hplain]
  constructor
  · -- the words determine the key
    intro h
    have hchars := congrArg unwords h
    rw [unwords_words, unwords_words] at hchars
    exact String.toList_inj.mp hchars
  · rintro rfl
    rfl

/-! ## Declarations -/

structure Binding where
  queue : String
  exchange : String
  key : String
deriving DecidableEq

inductive Declaration where
  | exchange (name : String)
  | queue (name : String)
  | binding (b : Binding)
deriving DecidableEq

def Declaration.binding? : Declaration → Option Binding
  | .binding b => some b
  | _ => none

structure Topology where
  exchanges : List String
  queues : List String
  bindings : List Binding

namespace Topology

def empty : Topology where
  exchanges := []
  queues := []
  bindings := []

def declare (t : Topology) : Declaration → Topology
  | .exchange name => { t with exchanges := t.exchanges.insert name }
  | .queue name => { t with queues := t.queues.insert name }
  | .binding b => { t with bindings := t.bindings.insert b }

def Declared (t : Topology) : Declaration → Prop
  | .exchange name => name ∈ t.exchanges
  | .queue name => name ∈ t.queues
  | .binding b => b ∈ t.bindings

/-- The queues that get a copy of a message. -/
def route (t : Topology) (exchange key : String) : List String :=
  ((t.bindings.filter fun b => b.exchange = exchange && topicMatches b.key key).map
    Binding.queue).dedup

lemma declared_declare_iff (t : Topology) (d d' : Declaration) :
    (t.declare d).Declared d' ↔ t.Declared d' ∨ d' = d := by
  cases d <;> cases d' <;> simp [declare, Declared, or_comm]

lemma nodup_route (t : Topology) (exchange key : String) : (t.route exchange key).Nodup :=
  List.nodup_dedup _

lemma mem_route {t : Topology} {exchange key queue : String} :
    queue ∈ t.route exchange key ↔ ∃ b, t.Declared (.binding b) ∧ b.exchange = exchange ∧
      topicMatches b.key key = true ∧ b.queue = queue := by
  simp [route, Declared, and_assoc]

end Topology

end Messaging
