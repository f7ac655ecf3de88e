import DevopsEcommerce.Interleaving.Program

/-!
# Programs that keep to a protocol

A protocol over the commands of `C` is an automaton: `next` is its move on a command and the
reply to it, `allowed` says which commands may be issued where. `Obeys` says of a program that
it issues nothing else, whatever it is answered, and `Obeys.follows` turns this into a fact
about every thread: the automaton has read its trace and allows the rest of its program.

For programs that only ask, `evaluate` is the answer for fixed replies, and `asked` are the
commands that it depends on.
-/

namespace Interleaving.Program

section
variable {C C' : Type} {R : C → Type} {R' : C' → Type} {α β : Type}

/-! ## Programs over other commands -/

/-- The same program with its commands issued under other names. -/
def embed (f : C → C') (g : (c : C) → R' (f c) → R c) : Program C R α → Program C' R' α
  | .done a => .done a
  | .call c k => .call (f c) fun r => (k (g c r)).embed f g

/-! ## Fixed choices and fixed replies -/

/-- If the environment does not count the commands, it does not matter from where they count. -/
lemma perform_const {σ Ω : Type} {exec : σ → ℕ → (c : C) → Ω → Option (σ × R c)} {i : ℕ}
    {choose : C → Ω} (p : Program C R α) (m n : ℕ) (s : σ) :
    p.perform exec i (fun _ => choose) m s = p.perform exec i (fun _ => choose) n s := by
  induction p generalizing m n s with
  | done a => rfl
  | call c k ih =>
    rw [perform, perform]
    exact congrArg _ (funext fun sr => ih sr.2 (m + 1) (n + 1) sr.1)

/-- The answer of a program whose commands have these replies. -/
def evaluate (reply : (c : C) → R c) : Program C R α → α
  | .done a => a
  | .call c k => (k (reply c)).evaluate reply

/-- The commands that are issued on the way. -/
def asked (reply : (c : C) → R c) : Program C R α → List C
  | .done _ => []
  | .call c k => c :: (k (reply c)).asked reply

/-- An answer depends on the replies to the commands issued, and on no others. -/
theorem evaluate_congr {p : Program C R α} {reply reply' : (c : C) → R c}
    (h : ∀ c ∈ p.asked reply, reply' c = reply c) : p.evaluate reply' = p.evaluate reply := by
  induction p with
  | done a => rfl
  | call c k ih =>
    have hfirst : reply' c = reply c := h c List.mem_cons_self
    show (k (reply' c)).evaluate reply' = (k (reply c)).evaluate reply
    rw [hfirst]
    exact ih _ fun c' hc' => h c' (List.mem_cons_of_mem c hc')

lemma Within.mono {P P' : C → Prop} {Q Q' : α → Prop} {p : Program C R α} (hp : p.Within P Q)
    (hP : ∀ c, P c → P' c) (hQ : ∀ a, Q a → Q' a) : p.Within P' Q' := by
  induction hp with
  | done ha => exact .done (hQ _ ha)
  | call hc _ ih => exact .call (hP _ hc) ih

lemma Within.asked {P : C → Prop} {Q : α → Prop} {p : Program C R α} (hp : p.Within P Q)
    (reply : (c : C) → R c) : ∀ c ∈ p.asked reply, P c := by
  induction hp with
  | done _ => exact fun c hc => absurd hc (by simp [Program.asked])
  | @call c k hc _ ih =>
    intro c' hc'
    rcases List.mem_cons.mp hc' with rfl | hc'
    · exact hc
    · exact ih (reply c) c' hc'

lemma Within.evaluate {P : C → Prop} {Q : α → Prop} {p : Program C R α} (hp : p.Within P Q)
    (reply : (c : C) → R c) : Q (p.evaluate reply) := by
  induction hp with
  | done ha => exact ha
  | @call c k _ _ ih => exact ih (reply c)

lemma Within.perform {σ Ω : Type} {exec : σ → ℕ → (c : C) → Ω → Option (σ × R c)} {i n : ℕ}
    {choose : ℕ → C → Ω} {P : C → Prop} {Q : α → Prop} {p : Program C R α} (hp : p.Within P Q)
    {s s' : σ} {a : α} (h : p.perform exec i choose n s = some (s', a)) : Q a := by
  induction hp generalizing n s with
  | done ha =>
    obtain ⟨-, rfl⟩ := perform_done h
    exact ha
  | call _ _ ih =>
    obtain ⟨s₁, r, -, hrest⟩ := perform_call h
    exact ih r hrest

end

/-! ## Protocols -/

section
variable {C : Type} {R : C → Type} {α β S : Type} (next : S → (c : C) → R c → S)
  (allowed : S → C → Prop)

/-- From the state `s` of the automaton on, the program issues only commands that are allowed
when their turn comes, and ends with answers that satisfy `Q`. -/
inductive Obeys (Q : S → α → Prop) : S → Program C R α → Prop
  | done {s : S} {a : α} (ha : Q s a) : Obeys Q s (.done a)
  | call {s : S} {c : C} {k : R c → Program C R α} (hc : allowed s c)
      (hk : ∀ r, Obeys Q (next s c r) (k r)) : Obeys Q s (.call c k)

/-- The state of the automaton after a trace, latest reply first. -/
def stateAfter (s : S) : List (Σ c, R c) → S
  | [] => s
  | ⟨c, r⟩ :: tr => next (stateAfter s tr) c r

variable {next allowed}

lemma Obeys.bind {Q : S → α → Prop} {Q' : S → β → Prop} {s : S} {p : Program C R α}
    {f : α → Program C R β} (hp : Obeys next allowed Q s p)
    (hf : ∀ s a, Q s a → Obeys next allowed Q' s (f a)) :
    Obeys next allowed Q' s (p.bind f) := by
  induction hp with
  | done ha => exact hf _ _ ha
  | call hc _ ih => exact .call hc ih

/-- What a program obeys, the rest of it obeys after every reply. -/
theorem Obeys.follows {Q : S → α → Prop} {s : S} {p q : Program C R α} {tr : List (Σ c, R c)}
    (hp : Obeys next allowed Q s p) (h : Follows p tr q) :
    Obeys next allowed Q (stateAfter next s tr) q := by
  induction h with
  | start => exact hp
  | reply r _ ih =>
    cases ih with
    | call _ hk => exact hk r

lemma Obeys.allowed_of_call {Q : S → α → Prop} {s : S} {c : C} {k : R c → Program C R α}
    (h : Obeys next allowed Q s (.call c k)) : allowed s c := by
  cases h with
  | call hc _ => exact hc

/-- A program obeys under other names what the renamed protocol makes of its own ones. -/
lemma Obeys.embed {C' : Type} {R' : C' → Type} {next' : S → (c : C') → R' c → S}
    {allowed' : S → C' → Prop} {f : C → C'} {g : (c : C) → R' (f c) → R c} {Q : S → α → Prop}
    {s : S} {p : Program C R α} (hp : Obeys next allowed Q s p)
    (hnext : ∀ s c r, next' s (f c) r = next s c (g c r))
    (hallowed : ∀ s c, allowed s c → allowed' s (f c)) :
    Obeys next' allowed' Q s (p.embed f g) := by
  induction hp with
  | done ha => exact .done ha
  | @call s c k hc _ ih =>
    refine .call (hallowed s c hc) fun r => ?_
    rw [hnext]
    exact ih (g c r)

/-- A program whose commands all leave the automaton where it is, and are allowed there. -/
lemma Within.obeys {P : C → Prop} {Q : α → Prop} {s : S} {p : Program C R α}
    (hp : p.Within P Q) (hnext : ∀ c r, P c → next s c r = s) (hallowed : ∀ c, P c → allowed s c) :
    Obeys next allowed (fun s' a => s' = s ∧ Q a) s p := by
  induction hp with
  | done ha => exact .done ⟨rfl, ha⟩
  | @call c k hc _ ih =>
    refine .call (hallowed c hc) fun r => ?_
    rw [hnext c r hc]
    exact ih r

end

/-! ## Replies of a kind -/

section
variable {C : Type} {R : C → Type} {α : Type} {A : (c : C) → R c → Prop}
  {p q : Program C R α}

variable (A) in
/-- With replies that `A` allows, `p` can become `q`. -/
def Leads (p q : Program C R α) : Prop := ∃ tr, Follows p tr q ∧ ∀ e ∈ tr, A e.1 e.2

lemma Leads.refl (p : Program C R α) : Leads A p p :=
  ⟨[], .start, fun e he => absurd he (by simp)⟩

lemma Leads.reply {c : C} {k : R c → Program C R α} {r : R c} (h : Leads A p (.call c k))
    (hr : A c r) : Leads A p (k r) := by
  obtain ⟨tr, hfollows, hallowed⟩ := h
  refine ⟨⟨c, r⟩ :: tr, .reply r hfollows, fun e he => ?_⟩
  rcases List.mem_cons.mp he with rfl | he
  · exact hr
  · exact hallowed e he

lemma Leads.mono {A' : (c : C) → R c → Prop} (hA : ∀ c r, A c r → A' c r) (h : Leads A p q) :
    Leads A' p q := by
  obtain ⟨tr, hfollows, hallowed⟩ := h
  exact ⟨tr, hfollows, fun e he => hA e.1 e.2 (hallowed e he)⟩

end

end Interleaving.Program
