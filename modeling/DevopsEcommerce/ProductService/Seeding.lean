import Mathlib.Algebra.GroupWithZero.Nat
import Mathlib.Algebra.Order.BigOperators.Group.List
import Mathlib.Algebra.Order.Group.Nat
import Mathlib.Data.List.Count
import Mathlib.Data.List.Nodup
import Mathlib.Data.Rat.Defs
import DevopsEcommerce.Interleaving.Program

/-!
# Seeding the catalogue

`seedProducts` of `index.js`, run by every replica of the product service before it listens:
a replica that counts no products inserts the ten samples. The count and the inserts are
commands of their own. The server writes the documents of an `insertMany` one by one, so that
other commands may fall between any two of them; that MongoDB refuses a command is left out.

The replicas that count an empty catalogue each write every sample (`Seeding.accounted`). There
is exactly one of them, and each sample is stored exactly once, if and only if no replica counts
the empty catalogue while another is about to insert (`seeded_once_iff`).
-/

namespace DevopsEcommerce.ProductSeeding

open Interleaving

/-- The aggregated ratings of a product. -/
structure Ratings where
  average : ℚ
  count : ℕ
deriving DecidableEq

/-- A product as `SAMPLE_PRODUCTS` gives it. -/
structure SampleProduct where
  name : String
  description : String
  price : ℕ
  category : String
  stock : ℕ
  imageUrl : String
  ratings : Ratings
deriving DecidableEq

def sampleProducts : List SampleProduct := [
  ⟨"MacBook Pro M4", "Apple laptop with M4 chip, 16GB RAM, 512GB SSD", 1999, "computers", 75, "",
    ⟨4.8, 342⟩⟩,
  ⟨"iPhone 16 Pro", "Latest iPhone with A18 Pro chip and titanium design", 1199, "electronics",
    150, "", ⟨4.7, 891⟩⟩,
  ⟨"Sony WH-1000XM5", "Premium noise-cancelling wireless headphones", 349, "audio", 200, "",
    ⟨4.6, 1253⟩⟩,
  ⟨"Samsung Galaxy S24", "Samsung flagship smartphone with Galaxy AI features", 899,
    "electronics", 120, "", ⟨4.5, 567⟩⟩,
  ⟨"iPad Air", "Lightweight tablet with M2 chip and 10.9-inch display", 599, "tablets", 100, "",
    ⟨4.7, 430⟩⟩,
  ⟨"AirPods Pro", "Active noise cancellation earbuds with adaptive audio", 249, "accessories",
    180, "", ⟨4.5, 2104⟩⟩,
  ⟨"Dell XPS 15", "15-inch ultrabook with InfinityEdge display", 1499, "computers", 60, "",
    ⟨4.4, 289⟩⟩,
  ⟨"Nike Air Max", "Classic running shoes with visible Air cushioning", 159, "shoes", 200, "",
    ⟨4.3, 1870⟩⟩,
  ⟨"Lego Star Wars", "Millennium Falcon building set with 1351 pieces", 169, "toys", 90, "",
    ⟨4.9, 743⟩⟩,
  ⟨"Dyson V15", "Cordless vacuum cleaner with laser dust detection", 749, "home", 50, "",
    ⟨4.6, 512⟩⟩]

/-! ## The start-up of a replica -/

inductive SeedCommand where
  | countDocuments
  | insert (product : SampleProduct)

def SeedReply : SeedCommand → Type
  | .countDocuments => ℕ
  | .insert _ => Unit

abbrev SeedProgram : Type := Program SeedCommand SeedReply Unit

/-- `Product.insertMany`: the documents in their order. -/
def insertMany : List SampleProduct → SeedProgram
  | [] => .done ()
  | product :: products => .call (.insert product) fun _ => insertMany products

def seedProducts : SeedProgram :=
  .call .countDocuments fun count : ℕ =>
    if count > 0 then .done () else insertMany sampleProducts

/-- The effect of a command on the catalogue. -/
def exec (catalogue : List SampleProduct) (_ : ℕ) :
    (c : SeedCommand) → Unit → Option (List SampleProduct × SeedReply c)
  | .countDocuments, _ => some (catalogue, catalogue.length)
  | .insert product, _ => some (catalogue ++ [product], ())

abbrev SeedThread : Type := Thread Unit SeedCommand SeedReply Unit

abbrev SeedPool : Type := Pool (List SampleProduct) Unit SeedCommand SeedReply Unit

def seedStep : SeedPool → ℕ × Unit → Option SeedPool := Pool.step exec

/-- `n` replicas that start on an empty database. -/
def starting (n : ℕ) : SeedPool := Pool.init (fun _ => seedProducts) [] (List.replicate n ())

def waitsForCount (t : SeedThread) : Bool :=
  match t.program.next? with
  | some .countDocuments => true
  | _ => false

def waitsForInsert (t : SeedThread) : Bool :=
  match t.program.next? with
  | some (.insert _) => true
  | _ => false

/-- The step is a count of the empty catalogue, and another replica is about to insert. -/
def Races (p : SeedPool) (l : ℕ × Unit) : Prop :=
  p.store = [] ∧ p.threads[l.1]?.any waitsForCount = true ∧
    p.threads.any waitsForInsert = true

instance (p : SeedPool) (l : ℕ × Unit) : Decidable (Races p l) :=
  inferInstanceAs (Decidable (_ ∧ _ ∧ _))

/-! ## What is still to be written -/

/-- The products that a replica has still to insert. -/
def unwritten : SeedProgram → List SampleProduct
  | .call (.insert product) k => product :: unwritten (k ())
  | _ => []

@[simp] lemma unwritten_seedProducts : unwritten seedProducts = [] := rfl

@[simp] lemma unwritten_insertMany (products : List SampleProduct) :
    unwritten (insertMany products) = products := by
  induction products with
  | nil => rfl
  | cons product products ih => exact congrArg (product :: ·) ih

lemma nodup_sampleProducts : sampleProducts.Nodup := by
  have hnames : (sampleProducts.map SampleProduct.name).Nodup := by decide +kernel
  exact List.Nodup.of_map _ hnames

/-- How often the replicas will still insert a product. -/
def dueInserts (p : SeedPool) (product : SampleProduct) : ℕ :=
  (p.threads.map fun t => (unwritten t.program).count product).sum

/-- Where the replicas stand after `m` of them have counted an empty catalogue: each of these has
stored or will store every sample, and while nothing is stored none has gone on further. -/
structure Seeding (m : ℕ) (p : SeedPool) : Prop where
  stages : ∀ t ∈ p.threads, t.program = seedProducts ∨ ∃ products, t.program = insertMany products
  accounted : ∀ product,
    p.store.count product + dueInserts p product = m * sampleProducts.count product
  untouched : p.store = [] → ∀ t ∈ p.threads,
    t.program = seedProducts ∨ t.program = insertMany sampleProducts

lemma dueInserts_set {p : SeedPool} {i : ℕ} {t : SeedThread} (ht : p.threads[i]? = some t)
    (store : List SampleProduct) (t' : SeedThread) (product : SampleProduct) :
    dueInserts ⟨store, p.threads.set i t'⟩ product + (unwritten t.program).count product =
      dueInserts p product + (unwritten t'.program).count product :=
  sum_map_set ht (fun t => (unwritten t.program).count product) t'

lemma dueInserts_eq_zero {p : SeedPool} (h : ∀ t ∈ p.threads, unwritten t.program = [])
    (product : SampleProduct) : dueInserts p product = 0 := by
  apply List.sum_eq_zero
  intro n hn
  obtain ⟨t, ht, rfl⟩ := List.mem_map.mp hn
  rw [h t ht, List.count_nil]

lemma seeding_starting (n : ℕ) : Seeding 0 (starting n) := by
  have hprogram : ∀ t ∈ (starting n).threads, t.program = seedProducts := by
    intro t ht
    obtain ⟨-, -, rfl⟩ := List.mem_map.mp ht
    rfl
  refine ⟨fun t ht => .inl (hprogram t ht), fun product => ?_, fun _ t ht => .inl (hprogram t ht)⟩
  have hdue : dueInserts (starting n) product = 0 :=
    dueInserts_eq_zero (fun t ht => by rw [hprogram t ht]; rfl) product
  rw [hdue, Nat.zero_mul]
  rfl

/-! ## One command -/

/-- What a command of thread `i` can be: a count, after which the replica inserts everything or
nothing, or the insert of its next product. -/
inductive Move (p : SeedPool) (i : ℕ) (t t' : SeedThread) : SeedPool → Prop
  | starts (hcount : t.program = seedProducts) (hempty : p.store = [])
      (ht' : t'.program = insertMany sampleProducts) : Move p i t t' ⟨p.store, p.threads.set i t'⟩
  | skips (hcount : t.program = seedProducts) (hfull : p.store ≠ [])
      (ht' : t'.program = insertMany []) : Move p i t t' ⟨p.store, p.threads.set i t'⟩
  | inserts (product : SampleProduct) (products : List SampleProduct)
      (hinsert : t.program = insertMany (product :: products))
      (ht' : t'.program = insertMany products) :
      Move p i t t' ⟨p.store ++ [product], p.threads.set i t'⟩

lemma Seeding.move {m : ℕ} {p p' : SeedPool} {l : ℕ × Unit} (h : Seeding m p)
    (hstep : seedStep p l = some p') :
    ∃ t t', p.threads[l.1]? = some t ∧ Move p l.1 t t' p' := by
  obtain ⟨t, c, k, s, r, ht, hk, hexec, rfl⟩ := Pool.step_eq_some.mp hstep
  refine ⟨t, t.receive c r (k r), ht, ?_⟩
  rcases h.stages t (List.mem_of_getElem? ht) with hcount | ⟨products, hinsert⟩
  · have hcall := hcount.symm.trans hk
    cases hcall
    obtain ⟨rfl, rfl⟩ := Prod.mk.inj (Option.some.inj hexec)
    by_cases hempty : p.store = []
    · refine .starts hcount hempty ?_
      simp [Thread.receive, hempty]
    · refine .skips hcount hempty ?_
      simp [Thread.receive, List.length_pos_iff.mpr hempty, insertMany]
  · cases products with
    | nil => exact absurd (hinsert.symm.trans hk) (by simp [insertMany])
    | cons product products =>
      have hcall := hinsert.symm.trans hk
      cases hcall
      obtain ⟨rfl, -⟩ := Prod.mk.inj (Option.some.inj hexec)
      exact .inserts product products hinsert rfl

lemma waitsForCount_of_seedProducts {t : SeedThread} (h : t.program = seedProducts) :
    waitsForCount t = true := by
  rw [waitsForCount, h]
  rfl

lemma not_waitsForCount_of_insertMany {t : SeedThread} {products : List SampleProduct}
    (h : t.program = insertMany products) : waitsForCount t = false := by
  rw [waitsForCount, h]
  cases products <;> rfl

/-- A replica counts an empty catalogue. -/
def CountsEmpty (p : SeedPool) (l : ℕ × Unit) : Prop :=
  p.store = [] ∧ p.threads[l.1]?.any waitsForCount = true

/-- Only a count of an empty catalogue adds a round of inserts. -/
theorem Seeding.step {m : ℕ} {p p' : SeedPool} {l : ℕ × Unit} (h : Seeding m p)
    (hstep : seedStep p l = some p') :
    (CountsEmpty p l ∧ Seeding (m + 1) p') ∨ (¬ CountsEmpty p l ∧ Seeding m p') := by
  obtain ⟨t, t', ht, hmove⟩ := h.move hstep
  cases hmove with
  | starts hcount hempty ht' =>
    have hcounts : CountsEmpty p l :=
      ⟨hempty, by rw [ht, Option.any_some, waitsForCount_of_seedProducts hcount]⟩
    refine .inl ⟨hcounts, forall_mem_set _ h.stages (.inr ⟨_, ht'⟩), fun product => ?_,
      fun _ => forall_mem_set _ (h.untouched hempty) (.inr ht')⟩
    have hdue := dueInserts_set ht p.store t' product
    have haccounted := h.accounted product
    rw [hcount, ht', unwritten_seedProducts, unwritten_insertMany, List.count_nil] at hdue
    show p.store.count product + _ = _
    rw [Nat.succ_mul]
    omega
  | skips hcount hfull ht' =>
    refine .inr ⟨fun hcounts => hfull hcounts.1,
      forall_mem_set _ h.stages (.inr ⟨_, ht'⟩), fun product => ?_,
      fun hempty => absurd hempty hfull⟩
    have hdue := dueInserts_set ht p.store t' product
    have haccounted := h.accounted product
    rw [hcount, ht', unwritten_seedProducts, unwritten_insertMany, List.count_nil] at hdue
    show p.store.count product + _ = _
    omega
  | inserts product products hinsert ht' =>
    refine .inr ⟨fun hcounts => ?_, forall_mem_set _ h.stages (.inr ⟨_, ht'⟩), fun product' => ?_,
      fun hempty => absurd hempty (by simp)⟩
    · have hwaits := hcounts.2
      rw [ht, Option.any_some, not_waitsForCount_of_insertMany hinsert] at hwaits
      cases hwaits
    · have hdue := dueInserts_set ht (p.store ++ [product]) t' product'
      have haccounted := h.accounted product'
      rw [hinsert, ht', unwritten_insertMany, unwritten_insertMany, List.count_cons] at hdue
      show (p.store ++ [product]).count product' + _ = _
      rw [List.count_append, List.count_cons, List.count_nil]
      omega

/-! ## The race -/

lemma ne_nil_of_waitsForInsert {t : SeedThread} (h : waitsForInsert t = true) :
    unwritten t.program ≠ [] := by
  obtain ⟨request, trace, program⟩ := t
  cases program with
  | done a => cases h
  | call c k =>
    cases c with
    | countDocuments => cases h
    | insert product => exact List.cons_ne_nil _ _

lemma exists_sampleProduct : ∃ product, product ∈ sampleProducts :=
  ⟨_, List.mem_cons_self⟩

/-- While nothing is stored, a replica that has counted stands before its first insert. -/
lemma Seeding.races_iff {m : ℕ} {p : SeedPool} {l : ℕ × Unit} (h : Seeding m p) :
    Races p l ↔ CountsEmpty p l ∧ 0 < m := by
  constructor
  · rintro ⟨hempty, hcounts, hinserts⟩
    obtain ⟨t, ht, hwaits⟩ := List.any_eq_true.mp hinserts
    obtain ⟨product, hproduct⟩ := List.exists_mem_of_ne_nil _ (ne_nil_of_waitsForInsert hwaits)
    have hdue : (unwritten t.program).count product ≤ dueInserts p product :=
      List.single_le_sum (fun _ _ => Nat.zero_le _) _ (List.mem_map_of_mem ht)
    have hpos : 0 < (unwritten t.program).count product := List.count_pos_iff.mpr hproduct
    have haccounted := h.accounted product
    refine ⟨⟨hempty, hcounts⟩, Nat.pos_of_ne_zero ?_⟩
    rintro rfl
    omega
  · rintro ⟨⟨hempty, hcounts⟩, hm⟩
    refine ⟨hempty, hcounts, ?_⟩
    by_contra hnone
    obtain ⟨product, hproduct⟩ := exists_sampleProduct
    have hnothing : ∀ t ∈ p.threads, unwritten t.program = [] := by
      intro t ht
      rcases h.untouched hempty t ht with hprogram | hprogram
      · rw [hprogram, unwritten_seedProducts]
      · refine absurd (List.any_eq_true.mpr ⟨t, ht, ?_⟩) hnone
        rw [waitsForInsert, hprogram]
        rfl
    have haccounted := h.accounted product
    rw [hempty, List.count_nil, dueInserts_eq_zero hnothing, Nat.add_zero] at haccounted
    have hpos : 0 < m * sampleProducts.count product :=
      Nat.mul_pos hm (List.count_pos_iff.mpr hproduct)
    omega

/-! ## A whole run -/

/-- When all replicas have ended, the catalogue holds `m` copies of the samples. -/
lemma Seeding.count_of_finished {m : ℕ} {p : SeedPool} (h : Seeding m p) (hfinished : p.Finished)
    (product : SampleProduct) :
    p.store.count product = m * sampleProducts.count product := by
  have hnothing : ∀ t ∈ p.threads, unwritten t.program = [] := by
    intro t ht
    obtain ⟨a, ha⟩ := Option.isSome_iff_exists.mp (hfinished t ht)
    rw [Program.answer?_eq_some ha]
    rfl
  rw [← h.accounted product, dueInserts_eq_zero hnothing, Nat.add_zero]

/-- Some replica has counted an empty catalogue. -/
lemma Seeding.pos_of_finished {m : ℕ} {p : SeedPool} (h : Seeding m p) (hfinished : p.Finished)
    (hthreads : p.threads ≠ []) : 0 < m := by
  refine Nat.pos_of_ne_zero ?_
  rintro rfl
  have hempty : p.store = [] := by
    refine List.eq_nil_iff_forall_not_mem.mpr fun product hproduct => ?_
    have hcount := h.count_of_finished hfinished product
    rw [Nat.zero_mul, List.count_eq_zero] at hcount
    exact hcount hproduct
  obtain ⟨t, ht⟩ := List.exists_mem_of_ne_nil _ hthreads
  obtain ⟨a, ha⟩ := Option.isSome_iff_exists.mp (hfinished t ht)
  have hdone := Program.answer?_eq_some ha
  rcases h.untouched hempty t ht with hprogram | hprogram
  · exact absurd (hprogram.symm.trans hdone) (by simp [seedProducts])
  · exact absurd (hprogram.symm.trans hdone) (by simp [insertMany, sampleProducts])

lemma threads_ne_nil_of_run {n : ℕ} {es : List (ℕ × Unit)} {p : SeedPool} (hn : 0 < n)
    (hrun : run seedStep (starting n) es = some p) : p.threads ≠ [] := by
  have hrequests : p.threads.map Thread.request = List.replicate n () :=
    run_invariant (Pool.requests_preserved _) (Pool.requests_init _ _ _) hrun
  rintro hnil
  rw [hnil, List.map_nil, eq_comm, List.replicate_eq_nil_iff] at hrequests
  omega

/-- One replica at most counts the empty catalogue, or there has been a race. -/
lemma rounds_of_run {n : ℕ} {es : List (ℕ × Unit)} {p : SeedPool}
    (hrun : run seedStep (starting n) es = some p) :
    (StepsMeet seedStep (fun p l => ¬ Races p l) (starting n) es ∧ ∃ m ≤ 1, Seeding m p) ∨
      (¬ StepsMeet seedStep (fun p l => ¬ Races p l) (starting n) es ∧
        ∃ m ≥ 2, Seeding m p) := by
  refine run_dichotomy (A := fun p => ∃ m ≤ 1, Seeding m p) (B := fun p => ∃ m ≥ 2, Seeding m p)
    (D := fun _ _ => True) ?_ ?_ ?_ ⟨0, Nat.zero_le 1, seeding_starting n⟩ (stepsMeet_true _ _) hrun
  -- the first count of the empty catalogue is no race
  · rintro p l p' ⟨m, hm, h⟩ - hcalm hstep
    rcases h.step hstep with ⟨hcounts, h'⟩ | ⟨-, h'⟩
    · have hfirst : ¬ 0 < m := fun hpos => hcalm (h.races_iff.mpr ⟨hcounts, hpos⟩)
      exact ⟨m + 1, by omega, h'⟩
    · exact ⟨m, hm, h'⟩
  -- a race is the second
  · rintro p l p' ⟨m, hm, h⟩ - hrace hstep
    obtain ⟨hcounts, hpos⟩ := h.races_iff.mp (not_not.mp hrace)
    rcases h.step hstep with ⟨-, h'⟩ | ⟨hno, -⟩
    · exact ⟨m + 1, by omega, h'⟩
    · exact absurd hcounts hno
  · rintro p l p' ⟨m, hm, h⟩ - hstep
    rcases h.step hstep with ⟨-, h'⟩ | ⟨-, h'⟩
    · exact ⟨m + 1, by omega, h'⟩
    · exact ⟨m, hm, h'⟩

/-- When all of the `n` replicas have ended, the catalogue holds each sample exactly once if and
only if no replica has counted the empty catalogue while another was about to insert. -/
theorem seeded_once_iff {n : ℕ} {es : List (ℕ × Unit)} {p : SeedPool} (hn : 0 < n)
    (hrun : run seedStep (starting n) es = some p) (hfinished : p.Finished) :
    (∀ product ∈ sampleProducts, p.store.count product = 1) ↔
      StepsMeet seedStep (fun p l => ¬ Races p l) (starting n) es := by
  rcases rounds_of_run hrun with ⟨hcalm, m, hm, hseeding⟩ | ⟨hrace, m, hm, hseeding⟩
  · refine iff_of_true (fun product hproduct => ?_) hcalm
    have hpos := hseeding.pos_of_finished hfinished (threads_ne_nil_of_run hn hrun)
    have hone : m = 1 := by omega
    rw [hseeding.count_of_finished hfinished, hone,
      List.count_eq_one_of_mem nodup_sampleProducts hproduct]
  · refine iff_of_false (fun honce => ?_) hrace
    obtain ⟨product, hproduct⟩ := exists_sampleProduct
    have hone := honce product hproduct
    rw [hseeding.count_of_finished hfinished,
      List.count_eq_one_of_mem nodup_sampleProducts hproduct] at hone
    omega

/-- The command that replica `i` waits for, `k` times. -/
def commands (k i : ℕ) : List (ℕ × Unit) := List.replicate k (i, ())

/-- The second of three replicas counts while the first one inserts, the third one at the end. -/
def oneByOne : List (ℕ × Unit) := commands 2 0 ++ commands 1 1 ++ commands 9 0 ++ commands 1 2

theorem seeded_once_iff_oneByOne :
    ∃ p, run seedStep (starting 3) oneByOne = some p ∧ p.Finished ∧
      ∀ product ∈ sampleProducts, p.store.count product = 1 := by
  have hfinished : (final seedStep (starting 3) oneByOne (by decide +kernel)).Finished := by
    decide +kernel
  exact ⟨_, run_final _, hfinished,
    (seeded_once_iff (by decide) (run_final _) hfinished).mpr (by decide +kernel)⟩

/-- **Every sample three times.** Three replicas count before any of them inserts. -/
theorem seeded_thrice :
    ¬ ∀ (n : ℕ) (es : List (ℕ × Unit)) (p : SeedPool), 0 < n →
      run seedStep (starting n) es = some p → p.Finished →
        ∀ product ∈ sampleProducts, p.store.count product = 1 := by
  intro h
  have honce := h 3 (commands 1 0 ++ commands 1 1 ++ commands 1 2 ++
    commands 10 0 ++ commands 10 1 ++ commands 10 2) _ (by decide)
    (run_final (by decide +kernel)) (by decide +kernel)
  exact absurd honce (by decide +kernel)

end DevopsEcommerce.ProductSeeding
