import Mathlib.Algebra.BigOperators.Group.List.Basic
import Mathlib.Algebra.GroupWithZero.Nat
import DevopsEcommerce.Interleaving.Runs

/-!
# Programs that issue commands, and pools of them

A request handler that talks to a store is a `Program`: it ends with an answer or issues
one command and goes on with the reply. Many handlers over one store form a `Pool`; its
step runs one command of one thread, so that the runs of `Pool.step` are exactly the
interleavings at the granularity of single commands.

What a command does is the parameter `exec`: it sees the store, the number of the thread
and the label's environment choice (a fault, the order of an unordered reply), and is
undefined where the command is blocked or the choice does not apply.

Each thread keeps the request it serves and the commands it has had answered. `Follows`
says that the program of a thread is what its handler becomes after these replies, so
that every fact about "where a thread stands" can be read off its trace.
-/

namespace Interleaving

/-- A program issues commands of `C` one at a time; `c` is answered by an `R c`. -/
inductive Program (C : Type) (R : C → Type) (α : Type) where
  | done (a : α)
  | call (c : C) (k : R c → Program C R α)

namespace Program
variable {C : Type} {R : C → Type} {α : Type}

/-- The answer of a program that has ended. -/
def answer? : Program C R α → Option α
  | .done a => some a
  | .call _ _ => none

/-- The command a program waits for. -/
def next? : Program C R α → Option C
  | .done _ => none
  | .call c _ => some c

/-- `p` has become the third argument after the replies of the trace, latest first. -/
inductive Follows (p : Program C R α) : List (Σ c, R c) → Program C R α → Prop
  | start : Follows p [] p
  | reply {tr : List (Σ c, R c)} {c : C} {k : R c → Program C R α} (r : R c) :
      Follows p tr (.call c k) → Follows p (⟨c, r⟩ :: tr) (k r)

/-- The program that goes on with `f` where `p` ends. -/
def bind {β : Type} : Program C R α → (α → Program C R β) → Program C R β
  | .done a, f => f a
  | .call c k, f => .call c fun r => (k r).bind f

/-- Every command that the program can come to issue satisfies `P`. -/
inductive Issues (P : C → Prop) : Program C R α → Prop
  | done (a : α) : Issues P (.done a)
  | call {c : C} {k : R c → Program C R α} (hc : P c) (hk : ∀ r, Issues P (k r)) :
      Issues P (.call c k)

/-- Every command that the program can come to issue satisfies `P`, and every answer `Q`. -/
inductive Within (P : C → Prop) (Q : α → Prop) : Program C R α → Prop
  | done {a : α} (ha : Q a) : Within P Q (.done a)
  | call {c : C} {k : R c → Program C R α} (hc : P c) (hk : ∀ r, Within P Q (k r)) :
      Within P Q (.call c k)

/-- The program run to its end with no other thread in between, as thread `i`. The
environment's choices may depend on the command and on how many came before it. -/
def perform {σ Ω : Type} (exec : σ → ℕ → (c : C) → Ω → Option (σ × R c)) (i : ℕ)
    (choose : ℕ → C → Ω) : Program C R α → ℕ → σ → Option (σ × α)
  | .done a, _, s => some (s, a)
  | .call c k, n, s =>
    (exec s i c (choose n c)).bind fun sr => (k sr.2).perform exec i choose (n + 1) sr.1

lemma perform_done {σ Ω : Type} {exec : σ → ℕ → (c : C) → Ω → Option (σ × R c)} {i n : ℕ}
    {choose : ℕ → C → Ω} {a b : α} {s s' : σ}
    (h : (Program.done a).perform exec i choose n s = some (s', b)) : s' = s ∧ b = a := by
  obtain ⟨rfl, rfl⟩ := Prod.mk.inj (Option.some.inj h)
  exact ⟨rfl, rfl⟩

/-- A program that starts with a command performs it and goes on with the reply. -/
lemma perform_call {σ Ω : Type} {exec : σ → ℕ → (c : C) → Ω → Option (σ × R c)} {i n : ℕ}
    {choose : ℕ → C → Ω} {c : C} {k : R c → Program C R α} {s s' : σ} {a : α}
    (h : (Program.call c k).perform exec i choose n s = some (s', a)) :
    ∃ s₁ r, exec s i c (choose n c) = some (s₁, r) ∧
      (k r).perform exec i choose (n + 1) s₁ = some (s', a) := by
  obtain ⟨⟨s₁, r⟩, hexec, hrest⟩ := Option.bind_eq_some_iff.mp h
  exact ⟨s₁, r, hexec, hrest⟩

/-- Where no command is ever blocked, a program comes to its end. -/
lemma perform_total {σ Ω : Type} {exec : σ → ℕ → (c : C) → Ω → Option (σ × R c)} {i : ℕ}
    {choose : ℕ → C → Ω} (hexec : ∀ s c ω, (exec s i c ω).isSome = true) (p : Program C R α)
    (n : ℕ) (s : σ) : ∃ s' a, p.perform exec i choose n s = some (s', a) := by
  induction p generalizing n s with
  | done a => exact ⟨s, a, rfl⟩
  | call c k ih =>
    obtain ⟨⟨s₁, r⟩, hstep⟩ := Option.isSome_iff_exists.mp (hexec s c (choose n c))
    obtain ⟨s', a, hrest⟩ := ih r (n + 1) s₁
    exact ⟨s', a, Option.bind_eq_some_iff.mpr ⟨_, hstep, hrest⟩⟩

/-- What every command keeps, a program keeps that is run to its end. -/
lemma perform_preserves {σ Ω : Type} {exec : σ → ℕ → (c : C) → Ω → Option (σ × R c)} {i n : ℕ}
    {choose : ℕ → C → Ω} {P : σ → Prop}
    (hexec : ∀ s c ω s' r, P s → exec s i c ω = some (s', r) → P s') {p : Program C R α}
    {s s' : σ} {a : α} (h : p.perform exec i choose n s = some (s', a)) (hs : P s) : P s' := by
  induction p generalizing n s with
  | done b =>
    obtain ⟨rfl, -⟩ := perform_done h
    exact hs
  | call c k ih =>
    obtain ⟨s₁, r, hstep, hrest⟩ := perform_call h
    exact ih r hrest (hexec s c _ s₁ r hs hstep)

lemma answer?_eq_some {p : Program C R α} {a : α} (h : p.answer? = some a) : p = .done a := by
  cases p with
  | done b => rw [Option.some.inj h]
  | call c k => exact absurd h (by simp [answer?])

lemma follows_done {a : α} {tr : List (Σ c, R c)} {q : Program C R α}
    (h : Follows (.done a) tr q) : tr = [] ∧ q = .done a := by
  induction h with
  | start => exact ⟨rfl, rfl⟩
  | reply r _ ih => exact absurd ih.2 (by simp)

/-- A program that starts with a command stands there, or has had the reply to it first. -/
lemma follows_call {c : C} {k : R c → Program C R α} {tr : List (Σ c, R c)}
    {q : Program C R α} (h : Follows (.call c k) tr q) :
    (tr = [] ∧ q = .call c k) ∨
      ∃ r tr', tr = tr' ++ [⟨c, r⟩] ∧ Follows (k r) tr' q := by
  induction h with
  | start => exact .inl ⟨rfl, rfl⟩
  | @reply tr c' k' r _ ih =>
    rcases ih with ⟨rfl, hq⟩ | ⟨r₁, tr', rfl, hrest⟩
    · cases hq
      exact .inr ⟨r, [], rfl, .start⟩
    · exact .inr ⟨r₁, ⟨c', r⟩ :: tr', rfl, .reply r hrest⟩

/-- What a program keeps to, it keeps to after every reply. -/
lemma Within.follows {P : C → Prop} {Q : α → Prop} {p q : Program C R α}
    {tr : List (Σ c, R c)} (hp : p.Within P Q) (h : Follows p tr q) :
    (∀ e ∈ tr, P e.1) ∧ q.Within P Q := by
  induction h with
  | start => exact ⟨fun e he => absurd he (by simp), hp⟩
  | @reply tr c k r _ ih =>
    obtain ⟨htrace, hcall⟩ := ih
    cases hcall with
    | call hc hk =>
      refine ⟨fun e he => ?_, hk r⟩
      rcases List.mem_cons.mp he with rfl | he
      · exact hc
      · exact htrace e he

lemma Within.bind {β : Type} {P : C → Prop} {Q : α → Prop} {Q' : β → Prop}
    {p : Program C R α} {f : α → Program C R β} (hp : p.Within P Q)
    (hf : ∀ a, Q a → (f a).Within P Q') : (p.bind f).Within P Q' := by
  induction hp with
  | done ha => exact hf _ ha
  | call hc _ ih => exact .call hc ih

/-- A program followed by another is in the first part or in the second. -/
lemma follows_bind {β : Type} {p : Program C R α} {f : α → Program C R β}
    {tr : List (Σ c, R c)} {q : Program C R β} (h : Follows (p.bind f) tr q) :
    (∃ p', Follows p tr p' ∧ q = p'.bind f) ∨
      ∃ a tr₁ tr₂, tr = tr₂ ++ tr₁ ∧ Follows p tr₁ (.done a) ∧ Follows (f a) tr₂ q := by
  induction h with
  | start => exact .inl ⟨p, .start, rfl⟩
  | @reply tr c k r _ ih =>
    rcases ih with ⟨p', hp', hq⟩ | ⟨a, tr₁, tr₂, rfl, hp, hf⟩
    · cases p' with
      | done a =>
        refine .inr ⟨a, tr, [⟨c, r⟩], rfl, hp', ?_⟩
        have hstart : Follows (f a) [] (.call c k) := hq ▸ .start
        exact .reply r hstart
      | call c' k' =>
        cases hq
        exact .inl ⟨k' r, .reply r hp', rfl⟩
    · exact .inr ⟨a, tr₁, ⟨c, r⟩ :: tr₂, rfl, hp, .reply r hf⟩

end Program

/-- How the environment treats a command on a store: it answers it, it fails without
having done anything, or it does it and the answer is lost. -/
inductive Fault where
  | none
  | before
  | after
deriving DecidableEq

open Program

/-! ## Pools -/

/-- One request being served: what it asked, the commands answered so far (latest
first) and what is left to do. -/
structure Thread (ρ C : Type) (R : C → Type) (α : Type) where
  request : ρ
  trace : List (Σ c, R c)
  program : Program C R α

/-- The threads and the store they share. -/
structure Pool (σ ρ C : Type) (R : C → Type) (α : Type) where
  store : σ
  threads : List (Thread ρ C R α)

section
variable {σ ρ C : Type} {R : C → Type} {α Ω : Type}

/-- The thread after the reply `r` to its command `c`. -/
def Thread.receive (t : Thread ρ C R α) (c : C) (r : R c) (rest : Program C R α) :
    Thread ρ C R α :=
  { t with trace := ⟨c, r⟩ :: t.trace, program := rest }

/-- All requests not started yet, over the store `s`. -/
def Pool.init (serve : ρ → Program C R α) (s : σ) (requests : List ρ) : Pool σ ρ C R α where
  store := s
  threads := requests.map fun q => { request := q, trace := [], program := serve q }

/-- The command that thread `i` waits for is executed and answered. -/
def Pool.step (exec : σ → ℕ → (c : C) → Ω → Option (σ × R c)) (p : Pool σ ρ C R α)
    (l : ℕ × Ω) : Option (Pool σ ρ C R α) :=
  match p.threads[l.1]? with
  | none => none
  | some t =>
    match t.program with
    | .done _ => none
    | .call c k =>
      (exec p.store l.1 c l.2).map fun sr =>
        { store := sr.1, threads := p.threads.set l.1 (t.receive c sr.2 (k sr.2)) }

/-- A new request arrives. -/
def Pool.arrive (serve : ρ → Program C R α) (p : Pool σ ρ C R α) (q : ρ) : Pool σ ρ C R α :=
  { p with threads := p.threads ++ [{ request := q, trace := [], program := serve q }] }

/-- Every thread has answered. -/
def Pool.Finished (p : Pool σ ρ C R α) : Prop :=
  ∀ t ∈ p.threads, t.program.answer?.isSome = true

instance (p : Pool σ ρ C R α) : Decidable p.Finished :=
  inferInstanceAs (Decidable (∀ t ∈ p.threads, t.program.answer?.isSome = true))

/-- Every thread is where its handler stands after the replies it has had. -/
def Pool.Serves (serve : ρ → Program C R α) (p : Pool σ ρ C R α) : Prop :=
  ∀ t ∈ p.threads, Follows (serve t.request) t.trace t.program

variable {exec : σ → ℕ → (c : C) → Ω → Option (σ × R c)}

/-- Everything a step of a pool can be. -/
theorem Pool.step_eq_some {p p' : Pool σ ρ C R α} {l : ℕ × Ω} :
    Pool.step exec p l = some p' ↔
      ∃ t c k s r, p.threads[l.1]? = some t ∧ t.program = .call c k ∧
        exec p.store l.1 c l.2 = some (s, r) ∧
        p' = { store := s, threads := p.threads.set l.1 (t.receive c r (k r)) } := by
  constructor
  · intro h
    simp only [Pool.step] at h
    split at h
    · exact absurd h (by simp)
    · rename_i t ht
      split at h
      · exact absurd h (by simp)
      · rename_i c k hk
        rw [Option.map_eq_some_iff] at h
        obtain ⟨⟨s, r⟩, hexec, rfl⟩ := h
        exact ⟨t, c, k, s, r, ht, hk, hexec, rfl⟩
  · rintro ⟨t, c, k, s, r, ht, hk, hexec, rfl⟩
    simp only [Pool.step, ht, hk, hexec, Option.map_some]

/-- A sum over the threads changes by the change of the thread that moved. -/
lemma sum_map_set {τ M : Type*} [AddCommMonoid M] {ts : List τ} {i : ℕ} {t : τ}
    (h : ts[i]? = some t) (f : τ → M) (t' : τ) :
    ((ts.set i t').map f).sum + f t = (ts.map f).sum + f t' := by
  induction ts generalizing i with
  | nil => simp at h
  | cons a ts ih =>
    cases i with
    | zero =>
      rw [List.getElem?_cons_zero, Option.some.injEq] at h
      subst h
      simp only [List.set_cons_zero, List.map_cons, List.sum_cons]
      rw [add_comm, add_comm (f t'), add_assoc]
    | succ i =>
      rw [List.getElem?_cons_succ] at h
      simp only [List.set_cons_succ, List.map_cons, List.sum_cons]
      rw [add_assoc, ih h, add_assoc]

/-- A count is at most a sum to which each that is counted contributes. -/
lemma countP_le_sum_map {τ : Type*} {ts : List τ} {f : τ → Bool} {g : τ → ℕ}
    (h : ∀ t ∈ ts, f t = true → 1 ≤ g t) : ts.countP f ≤ (ts.map g).sum := by
  induction ts with
  | nil => exact Nat.le_refl 0
  | cons t ts ih =>
    have hrest := ih fun u hu => h u (List.mem_cons_of_mem t hu)
    rw [List.countP_cons, List.map_cons, List.sum_cons]
    split
    · rename_i hf
      have hone := h t List.mem_cons_self hf
      omega
    · omega

/-- A count of threads changes by the thread that moved. -/
lemma countP_set {τ : Type*} {ts : List τ} {i : ℕ} {t : τ} (h : ts[i]? = some t)
    (f : τ → Bool) (t' : τ) :
    (ts.set i t').countP f + (if f t then 1 else 0) = ts.countP f + if f t' then 1 else 0 := by
  induction ts generalizing i with
  | nil => simp at h
  | cons a ts ih =>
    cases i with
    | zero =>
      rw [List.getElem?_cons_zero, Option.some.injEq] at h
      rw [List.set_cons_zero, List.countP_cons, List.countP_cons, h]
      omega
    | succ i =>
      rw [List.getElem?_cons_succ] at h
      have := ih h
      rw [List.set_cons_succ, List.countP_cons, List.countP_cons]
      omega

/-- A list made from some of the threads stays, if it does not depend on the move. -/
lemma filterMap_set_of_eq {τ β : Type*} {ts : List τ} {i : ℕ} {t : τ} (h : ts[i]? = some t)
    {f : τ → Option β} {t' : τ} (hf : f t' = f t) : (ts.set i t').filterMap f = ts.filterMap f := by
  induction ts generalizing i with
  | nil => rfl
  | cons a ts ih =>
    cases i with
    | zero =>
      rw [List.getElem?_cons_zero, Option.some.injEq] at h
      rw [List.set_cons_zero, List.filterMap_cons, List.filterMap_cons, hf, h]
    | succ i =>
      rw [List.getElem?_cons_succ] at h
      rw [List.set_cons_succ, List.filterMap_cons, List.filterMap_cons, ih h]

/-- It gets one more element if the thread that moved had contributed none. -/
lemma filterMap_set_perm {τ β : Type*} {ts : List τ} {i : ℕ} {t : τ} (h : ts[i]? = some t)
    {f : τ → Option β} {t' : τ} {b : β} (ht : f t = none) (ht' : f t' = some b) :
    ((ts.set i t').filterMap f).Perm (b :: ts.filterMap f) := by
  induction ts generalizing i with
  | nil => simp at h
  | cons a ts ih =>
    cases i with
    | zero =>
      rw [List.getElem?_cons_zero, Option.some.injEq] at h
      rw [List.set_cons_zero, List.filterMap_cons, List.filterMap_cons, h, ht, ht']
    | succ i =>
      rw [List.getElem?_cons_succ] at h
      rw [List.set_cons_succ, List.filterMap_cons, List.filterMap_cons]
      cases f a with
      | none => exact ih h
      | some b' => exact ((ih h).cons b').trans (.swap b b' _)

lemma getElem?_set_moved {τ : Type*} {ts : List τ} {i : ℕ} {t : τ} (h : ts[i]? = some t)
    (t' : τ) : (ts.set i t')[i]? = some t' := by
  rw [List.getElem?_set_self', h]
  rfl

/-- A thread after a step is the one that moved or one from before. -/
lemma getElem?_set_eq_some {τ : Type*} {ts : List τ} {i j : ℕ} {t' u : τ}
    (h : (ts.set i t')[j]? = some u) : (j = i ∧ u = t') ∨ (j ≠ i ∧ ts[j]? = some u) := by
  by_cases hij : i = j
  · subst hij
    rw [List.getElem?_set_self'] at h
    obtain ⟨a, -, rfl⟩ := Option.map_eq_some_iff.mp h
    exact .inl ⟨rfl, rfl⟩
  · rw [List.getElem?_set_ne hij] at h
    exact .inr ⟨Ne.symm hij, h⟩

/-- A property of all threads after a step needs checking on the thread that moved. -/
lemma forall_mem_set {τ : Type*} {P : τ → Prop} {ts : List τ} (i : ℕ) {t' : τ}
    (hts : ∀ t ∈ ts, P t) (ht' : P t') : ∀ t ∈ ts.set i t', P t := by
  intro t ht
  rcases List.mem_or_eq_of_mem_set ht with h | rfl
  · exact hts t h
  · exact ht'

/-- What a reply keeps of a thread, a step keeps of all threads. -/
theorem Pool.forall_threads_preserved {P : Thread ρ C R α → Prop}
    (hreply : ∀ (t : Thread ρ C R α) (c : C) (k : R c → Program C R α) (r : R c) (s s' : σ)
      (l : ℕ × Ω), P t → t.program = .call c k → exec s l.1 c l.2 = some (s', r) →
        P (t.receive c r (k r))) :
    Preserved (Pool.step exec) fun p : Pool σ ρ C R α => ∀ t ∈ p.threads, P t := by
  intro p l p' hp hstep
  obtain ⟨t, c, k, s, r, ht, hk, hexec, rfl⟩ := Pool.step_eq_some.mp hstep
  exact forall_mem_set _ hp
    (hreply t c k r p.store s l (hp t (List.mem_of_getElem? ht)) hk hexec)

/-- A thread after a step was there before, with the same request. -/
lemma Pool.request_of_step {p p' : Pool σ ρ C R α} {l : ℕ × Ω} {i : ℕ} {t' : Thread ρ C R α}
    (hstep : Pool.step exec p l = some p') (ht' : p'.threads[i]? = some t') :
    ∃ t, p.threads[i]? = some t ∧ t'.request = t.request := by
  obtain ⟨t, c, k, s, r, ht, hk, hexec, rfl⟩ := Pool.step_eq_some.mp hstep
  rcases getElem?_set_eq_some ht' with ⟨rfl, rfl⟩ | ⟨-, hold⟩
  · exact ⟨t, ht, rfl⟩
  · exact ⟨t', hold, rfl⟩

/-- Let `Φ` relate the store to what a thread has been told. If a step keeps it of the replies
given and it holds of the new one, it holds of all after the step. -/
lemma Pool.told_step {Φ : σ → ℕ → (Σ c, R c) → Prop} {p p' : Pool σ ρ C R α} {l : ℕ × Ω}
    (hstep : Pool.step exec p l = some p') (hmono : ∀ i e, Φ p.store i e → Φ p'.store i e)
    (hnew : ∀ c r, exec p.store l.1 c l.2 = some (p'.store, r) → Φ p'.store l.1 ⟨c, r⟩)
    (hp : ∀ i t, p.threads[i]? = some t → ∀ e ∈ t.trace, Φ p.store i e) :
    ∀ i t, p'.threads[i]? = some t → ∀ e ∈ t.trace, Φ p'.store i e := by
  obtain ⟨t, c, k, s, r, ht, hk, hexec, rfl⟩ := Pool.step_eq_some.mp hstep
  intro i u hu e he
  rcases getElem?_set_eq_some hu with ⟨rfl, rfl⟩ | ⟨-, hold⟩
  · rcases List.mem_cons.mp he with rfl | he
    · exact hnew c r hexec
    · exact hmono _ e (hp _ t ht e he)
  · exact hmono i e (hp i u hold e he)

/-- What holds of a thread that has just arrived and of the others holds of all. -/
lemma Pool.forall_arrive {serve : ρ → Program C R α} {p : Pool σ ρ C R α} {q : ρ}
    {P : Thread ρ C R α → Prop} (hp : ∀ t ∈ p.threads, P t) (hq : P ⟨q, [], serve q⟩) :
    ∀ t ∈ (p.arrive serve q).threads, P t := by
  intro t ht
  rcases List.mem_append.mp ht with ht | ht
  · exact hp t ht
  · rw [List.mem_singleton.mp ht]
    exact hq

lemma Pool.length_arrive (serve : ρ → Program C R α) (p : Pool σ ρ C R α) (q : ρ) :
    (p.arrive serve q).threads.length = p.threads.length + 1 :=
  List.length_append

/-- The threads that are there keep their numbers. -/
lemma Pool.getElem?_arrive {serve : ρ → Program C R α} {p : Pool σ ρ C R α} {q : ρ} {i : ℕ}
    {t : Thread ρ C R α} (h : p.threads[i]? = some t) :
    (p.arrive serve q).threads[i]? = some t := by
  have hi : i < p.threads.length := (List.getElem?_eq_some_iff.mp h).1
  show (p.threads ++ _)[i]? = some t
  rw [List.getElem?_append_left hi]
  exact h

/-- A thread after an arrival is one from before or the new one. -/
lemma Pool.thread_of_arrive {serve : ρ → Program C R α} {p : Pool σ ρ C R α} {q : ρ} {i : ℕ}
    {t : Thread ρ C R α} (h : (p.arrive serve q).threads[i]? = some t) :
    p.threads[i]? = some t ∨ (i = p.threads.length ∧ t = ⟨q, [], serve q⟩) := by
  have hlast : (p.threads ++ [⟨q, [], serve q⟩])[i]? = some t := h
  rcases Nat.lt_or_ge i p.threads.length with hi | hi
  · rw [List.getElem?_append_left hi] at hlast
    exact .inl hlast
  · rw [List.getElem?_append_right hi, List.getElem?_singleton,
      Option.ite_none_right_eq_some] at hlast
    obtain ⟨hzero, hnew⟩ := hlast
    have hnumber : i = p.threads.length := by omega
    exact .inr ⟨hnumber, (Option.some.inj hnew).symm⟩

/-- An arrival tells no thread anything. -/
lemma Pool.told_arrive {serve : ρ → Program C R α} {Φ : σ → ℕ → (Σ c, R c) → Prop}
    {p : Pool σ ρ C R α} (q : ρ)
    (hp : ∀ i t, p.threads[i]? = some t → ∀ e ∈ t.trace, Φ p.store i e) :
    ∀ i t, (p.arrive serve q).threads[i]? = some t → ∀ e ∈ t.trace, Φ p.store i e := by
  intro i t ht e he
  rcases Pool.thread_of_arrive ht with ht | ⟨-, rfl⟩
  · exact hp i t ht e he
  · exact absurd he (by simp)

/-- A step changes no request. -/
theorem Pool.requests_preserved (requests : List ρ) :
    Preserved (Pool.step exec) fun p : Pool σ ρ C R α =>
      p.threads.map Thread.request = requests := by
  intro p l p' hp hstep
  obtain ⟨t, c, k, s, r, ht, -, -, rfl⟩ := Pool.step_eq_some.mp hstep
  rw [← hp, List.map_set]
  apply List.ext_getElem?
  intro j
  by_cases hj : l.1 = j
  · subst hj
    rw [List.getElem?_set_self', List.getElem?_map, ht]
    rfl
  · rw [List.getElem?_set_ne hj]

lemma Pool.requests_init (serve : ρ → Program C R α) (s : σ) (requests : List ρ) :
    (Pool.init serve s requests).threads.map Thread.request = requests := by
  unfold Pool.init
  rw [List.map_map]
  exact List.map_id requests

lemma Pool.serves_init (serve : ρ → Program C R α) (s : σ) (requests : List ρ) :
    (Pool.init serve s requests).Serves serve := by
  intro t ht
  obtain ⟨q, -, rfl⟩ := List.mem_map.mp ht
  exact .start

theorem Pool.serves_preserved (serve : ρ → Program C R α) :
    Preserved (Pool.step exec) (Pool.Serves serve) :=
  Pool.forall_threads_preserved fun _ _ _ r _ _ _ hfollows hk _ => .reply r (hk ▸ hfollows)

theorem Pool.issues_preserved (P : C → Prop) :
    Preserved (Pool.step exec) fun p : Pool σ ρ C R α => ∀ t ∈ p.threads, t.program.Issues P := by
  refine Pool.forall_threads_preserved fun t c k r _ _ _ h hk _ => ?_
  rw [hk] at h
  cases h with
  | call _ hrest => exact hrest r

end

end Interleaving
