import DevopsEcommerce.Interleaving.Arrivals
import DevopsEcommerce.NotificationWorker.Untyped

/-!
# The history of a user

Any number of workers call `storeNotification`, each call a push and a trim that others may come
between. The list of a user is at any time the newest part of what has been pushed, and when no
call is in progress `getNotificationHistory` returns exactly the newest 100 records
(`history_is_newest`).
-/

open Interleaving Js Redis

namespace DevopsEcommerce.NotificationWorker.Untyped

/-- A call of `storeNotification`. -/
structure StoreCall where
  userId : Json
  notification : Json

abbrev StoreThread := Thread StoreCall Command Reply (Except Exception Unit)

abbrev StorePool := Pool Store StoreCall Command Reply (Except Exception Unit)

/-- Everything that has been pushed to the key, latest first. -/
def Store.history (store : Store) (key : String) : List String :=
  (store.pushed.filter fun entry => entry.1 = key).map Prod.snd

/-- The thread has pushed to the key, and is to trim it. -/
def awaitsTrim (key : String) (t : StoreThread) : Bool :=
  match t.program.next? with
  | some (.ltrim key' _ _) => key' = key
  | _ => false

/-- What happens is a call, or a command that is sent once and succeeds. -/
def Succeeds : Event StoreCall Outcome → Prop
  | .arrive _ => True
  | .execute l => l.2 = .once .none

section
variable (double : Json.NumberLiteral → Number)

def StoreCall.serve (call : StoreCall) : Async Unit :=
  storeNotification double call.userId call.notification

/-- The key of the call; `none` if its user cannot be converted to a string. -/
def StoreCall.key? (call : StoreCall) : Option String :=
  (toText double call.userId).map notificationsKey

/-- The record of a call about the key. -/
def calledFor (key : String) (t : StoreThread) : Option Json :=
  if t.request.key? double = some key then some t.request.notification else none

/-- The record that the thread has pushed to the key. -/
def pushedTo (key : String) (t : StoreThread) : Option Json :=
  if t.trace = [] then none else calledFor double key t

instance (tr : List (Σ c, Reply c)) : Decidable (tr = []) :=
  decidable_of_iff (tr.isEmpty = true) List.isEmpty_iff

/-! ## Where a call stands -/

/-- What is left of `storeNotification` after its push. -/
def trimming (key : String) : Async Unit :=
  .call (.ltrim key 0 (maxNotificationsPerUser - 1)) fun
    | .error _ => .done (.error .redisError)
    | .ok () => .done (.ok ())

/-- Where a call stands, as long as its commands succeed. -/
inductive Stands (call : StoreCall) : List (Σ c, Reply c) → Async Unit → Prop
  | throws (hkey : call.key? double = none) : Stands call [] (.done (.error .typeError))
  | starts {key : String} (k : Reply (.lpush key (stringify call.notification)) → Async Unit)
      (hkey : call.key? double = some key) (hk : k (.ok ()) = trimming key) :
      Stands call [] (.call (.lpush key (stringify call.notification)) k)
  | trims {key : String} {tr : List (Σ c, Reply c)} (hkey : call.key? double = some key)
      (htr : tr ≠ []) : Stands call tr (trimming key)
  | ended {tr : List (Σ c, Reply c)} (htr : tr ≠ []) : Stands call tr (.done (.ok ()))

variable {double}

lemma stands_serve (call : StoreCall) : Stands double call [] (call.serve double) := by
  have hkey : call.key? double = (toText double call.userId).map notificationsKey := rfl
  unfold StoreCall.serve storeNotification
  cases htext : toText double call.userId with
  | none =>
    rw [htext, Option.map_none] at hkey
    exact .throws hkey
  | some text =>
    rw [htext, Option.map_some] at hkey
    refine .starts _ hkey (congrArg (Program.call _) (funext fun trimmed => ?_))
    cases trimmed <;> rfl

/-! ## One step -/

/-- What holds of a key and the threads that push to it. -/
structure KeepsNewest (double : Json.NumberLiteral → Number) (key : String) (p : StorePool) :
    Prop where
  stands : ∀ t ∈ p.threads, Stands double t.request t.trace t.program
  capped : Redis.Capped maxNotificationsPerUser (p.store.history key) (p.store.lists key)
    (p.threads.countP (awaitsTrim key))
  records : ∃ records : List Json, records.map stringify = p.store.history key ∧
    records.Perm (p.threads.filterMap (pushedTo double key))

variable {key : String} {p p' : StorePool}

lemma awaitsTrim_of_stands {call : StoreCall} {program : Async Unit}
    (h : Stands double call [] program) : awaitsTrim key ⟨call, [], program⟩ = false := by
  cases h with
  | throws _ => rfl
  | starts k _ _ => rfl
  | trims _ htr => exact absurd rfl htr
  | ended htr => exact absurd rfl htr

lemma KeepsNewest.init {lists : Redis.Lists} (hempty : lists key = []) :
    KeepsNewest double key ⟨⟨lists, []⟩, []⟩ where
  stands t ht := absurd ht List.not_mem_nil
  capped := by
    show Redis.Capped _ [] (lists key) 0
    rw [hempty]
    exact .nil _
  records := ⟨[], rfl, .refl _⟩

lemma KeepsNewest.arrive (h : KeepsNewest double key p) (call : StoreCall) :
    KeepsNewest double key (p.arrive (StoreCall.serve double) call) := by
  have hstands : Stands double call [] (call.serve double) := stands_serve call
  constructor
  · exact Pool.forall_arrive h.stands hstands
  · show Redis.Capped _ (p.store.history key) (p.store.lists key) (List.countP _ (p.threads ++ _))
    rw [List.countP_append, List.countP_singleton, awaitsTrim_of_stands hstands]
    exact h.capped
  · obtain ⟨records, hrecords, hperm⟩ := h.records
    refine ⟨records, hrecords, ?_⟩
    show records.Perm (List.filterMap _ (p.threads ++ _))
    rw [List.filterMap_append]
    exact (List.append_nil _).symm ▸ hperm

lemma pushedTo_of_trace {t : StoreThread} (htr : t.trace ≠ []) :
    pushedTo double key t = calledFor double key t :=
  if_neg htr

lemma calledFor_congr {t t' : StoreThread} (h : t'.request = t.request) :
    calledFor double key t' = calledFor double key t := by
  unfold calledFor
  rw [h]

/-- A push goes to the list and the history of its key. -/
lemma history_lpush (store : Store) (key' value : String) :
    (effect store (.lpush key' value)).history key =
      if key' = key then value :: store.history key else store.history key := by
  unfold effect Store.history
  rw [List.filter_cons]
  by_cases hkey : key' = key
  · simp [hkey]
  · simp [hkey]

lemma lists_lpush (store : Store) (key' value : String) :
    (effect store (.lpush key' value)).lists key =
      if key' = key then value :: store.lists key else store.lists key := by
  show Function.update store.lists key' (value :: store.lists key') key = _
  by_cases hkey : key' = key
  · subst hkey
    rw [Function.update_self, if_pos rfl]
  · rw [Function.update_of_ne (Ne.symm hkey), if_neg hkey]

/-- The trim of `storeNotification`. -/
lemma lists_ltrim (store : Store) (key' : String) :
    (effect store (.ltrim key' 0 (maxNotificationsPerUser - 1))).lists key =
      if key' = key then (store.lists key).take maxNotificationsPerUser else store.lists key := by
  show Function.update store.lists key' ((store.lists key').take maxNotificationsPerUser) key = _
  by_cases hkey : key' = key
  · subst hkey
    rw [Function.update_self, if_pos rfl]
  · rw [Function.update_of_ne (Ne.symm hkey), if_neg hkey]

lemma awaitsTrim_trimming {t : StoreThread} {key' : String}
    (h : t.program = trimming key') : awaitsTrim key t = decide (key' = key) := by
  unfold awaitsTrim
  rw [h]
  rfl

/-- A push: the thread `t` becomes `t'`, which is to trim the list. -/
lemma KeepsNewest.push (h : KeepsNewest double key p) {i : ℕ} {t t' : StoreThread} {key' : String}
    (ht : p.threads[i]? = some t) (htr : t.trace = []) (hbefore : awaitsTrim key t = false)
    (hkey : t.request.key? double = some key') (hrequest : t'.request = t.request)
    (htr' : t'.trace ≠ []) (hprogram : t'.program = trimming key') :
    KeepsNewest double key
      { store := effect p.store (.lpush key' (stringify t.request.notification))
        threads := p.threads.set i t' } := by
  have hnone : pushedTo double key t = none := if_pos htr
  have hcalled : pushedTo double key t' = calledFor double key t :=
    (pushedTo_of_trace htr').trans (calledFor_congr hrequest)
  have hcount := countP_set ht (awaitsTrim key) t'
  rw [awaitsTrim_trimming hprogram, hbefore] at hcount
  obtain ⟨records, hrecords, hperm⟩ := h.records
  constructor
  · refine forall_mem_set _ h.stands ?_
    rw [hprogram, hrequest]
    exact .trims hkey htr'
  · rw [history_lpush, lists_lpush]
    by_cases hsame : key' = key
    · -- the list may be longer by one, until this call trims it
      simp only [hsame, decide_true, if_true, Bool.false_eq_true, if_false] at hcount ⊢
      rw [← Nat.add_zero (List.countP _ _), hcount]
      exact h.capped.push _
    · simp only [hsame, decide_false, Bool.false_eq_true, if_false, Nat.add_zero] at hcount ⊢
      rw [hcount]
      exact h.capped
  · rw [history_lpush]
    by_cases hsame : key' = key
    · subst hsame
      rw [calledFor, if_pos hkey] at hcalled
      refine ⟨t.request.notification :: records, ?_, ?_⟩
      · rw [List.map_cons, hrecords, if_pos rfl]
      · exact (hperm.cons _).trans (filterMap_set_perm ht hnone hcalled).symm
    · rw [calledFor, hkey, if_neg (by simpa using hsame)] at hcalled
      rw [if_neg hsame, filterMap_set_of_eq ht (hcalled.trans hnone.symm)]
      exact ⟨records, hrecords, hperm⟩

/-- A trim, which ends the call. -/
lemma KeepsNewest.trim (h : KeepsNewest double key p) {i : ℕ} {t t' : StoreThread} {key' : String}
    (ht : p.threads[i]? = some t) (htr : t.trace ≠ []) (hprogram : t.program = trimming key')
    (hrequest : t'.request = t.request) (htr' : t'.trace ≠ [])
    (hended : t'.program = .done (.ok ())) :
    KeepsNewest double key
      { store := effect p.store (.ltrim key' 0 (maxNotificationsPerUser - 1))
        threads := p.threads.set i t' } := by
  have hafter : awaitsTrim key t' = false := by
    unfold awaitsTrim
    rw [hended]
    rfl
  have hpushed : pushedTo double key t' = pushedTo double key t := by
    rw [pushedTo_of_trace htr', pushedTo_of_trace htr, calledFor_congr hrequest]
  have hcount := countP_set ht (awaitsTrim key) t'
  rw [awaitsTrim_trimming hprogram, hafter] at hcount
  constructor
  · refine forall_mem_set _ h.stands ?_
    rw [hended]
    exact .ended htr'
  · rw [lists_ltrim]
    show Redis.Capped _ (p.store.history key) _ _
    by_cases hsame : key' = key
    · -- one call less is to trim this list
      simp only [hsame, decide_true, if_true, Bool.false_eq_true, if_false,
        Nat.add_zero] at hcount ⊢
      rw [← Nat.add_sub_cancel (List.countP _ (p.threads.set i t')) 1, hcount]
      exact h.capped.trim
    · simp only [hsame, decide_false, Bool.false_eq_true, if_false, Nat.add_zero] at hcount ⊢
      rw [hcount]
      exact h.capped
  · rw [filterMap_set_of_eq ht hpushed]
    exact h.records

/-- A command that succeeds. -/
lemma KeepsNewest.execute (h : KeepsNewest double key p) {l : ℕ × Outcome}
    (hl : l.2 = .once .none)
    (hstep : Pool.step exec p l = some p') : KeepsNewest double key p' := by
  obtain ⟨t, c, k, s, r, ht, hprogram, hexec, rfl⟩ := Pool.step_eq_some.mp hstep
  obtain ⟨rfl, rfl⟩ : effect p.store c = s ∧ reply p.store c = r := by
    rw [hl, exec_once] at hexec
    exact Prod.mk.inj (Option.some.inj hexec)
  have hstands := h.stands t (List.mem_of_getElem? ht)
  have htrace : (t.receive c (reply p.store c) (k (reply p.store c))).trace ≠ [] :=
    List.cons_ne_nil _ _
  generalize hcall : t.program = program at hstands
  rw [hprogram] at hcall
  generalize htr : t.trace = tr at hstands
  cases hstands with
  | throws _ => cases hcall
  | starts k' hkey hk =>
    cases hcall
    have hbefore : awaitsTrim key t = false := by
      unfold awaitsTrim
      rw [hprogram]
      rfl
    exact h.push ht htr hbefore hkey rfl htrace hk
  | @trims key' _ _ htr' =>
    have htrim : t.program = trimming key' := by rw [hprogram, hcall]
    cases hcall
    exact h.trim ht (htr ▸ htr') htrim rfl htrace rfl
  | ended _ => cases hcall

/-- A step, the command of which succeeds if it has one. -/
lemma KeepsNewest.step (h : KeepsNewest double key p) {e : Event StoreCall Outcome}
    (hsucceeds : Succeeds e) (hstep : Pool.openStep (StoreCall.serve double) exec p e = some p') :
    KeepsNewest double key p' := by
  cases e with
  | arrive call =>
    obtain rfl := Option.some.inj hstep
    exact h.arrive call
  | execute l => exact h.execute hsucceeds hstep

/-! ## Runs -/

/-- When no call is in progress, the list is determined by what has been pushed. -/
lemma KeepsNewest.lists_eq (h : KeepsNewest double key p) (hfinished : p.Finished) :
    p.store.lists key = (p.store.history key).take maxNotificationsPerUser := by
  have huntrimmed : p.threads.countP (awaitsTrim key) = 0 := by
    rw [List.countP_eq_zero]
    intro t ht
    obtain ⟨a, ha⟩ := Option.isSome_iff_exists.mp (hfinished t ht)
    unfold awaitsTrim
    rw [Program.answer?_eq_some ha]
    exact Bool.false_ne_true
  have hcapped := h.capped
  rw [huntrimmed] at hcapped
  exact hcapped.eq_take

/-- A call that has ended has pushed its record. -/
lemma KeepsNewest.pushed_eq (h : KeepsNewest double key p) (hfinished : p.Finished) :
    p.threads.filterMap (pushedTo double key) = p.threads.filterMap (calledFor double key) := by
  refine List.filterMap_congr fun t ht => ?_
  by_cases htr : t.trace = []
  · -- it has thrown at the conversion of its user
    have hstands := h.stands t ht
    have hended := hfinished t ht
    rw [htr] at hstands
    generalize t.program = program at hstands hended
    rw [pushedTo, if_pos htr, calledFor]
    cases hstands with
    | throws hkey => rw [hkey, if_neg (by simp)]
    | starts _ _ _ => exact absurd hended (by simp [Program.answer?])
    | trims _ hne => exact absurd rfl hne
    | ended hne => exact absurd rfl hne
  · exact pushedTo_of_trace htr

end

/-- In every state, the list of a user is the newest part of the records that were pushed for
the user: at least the newest 100, and no more than that and one for each call that is to trim.
When all calls have ended, `getNotificationHistory` returns the newest 100 of their records. -/
theorem history_is_newest (double : Json.NumberLiteral → Number) {lists : Redis.Lists}
    {user : String} (hempty : lists (notificationsKey user) = [])
    {es : List (Event StoreCall Outcome)} (hsucceed : ∀ e ∈ es, Succeeds e) {p : StorePool}
    (hrun : run (Pool.openStep (StoreCall.serve double) exec) ⟨⟨lists, []⟩, []⟩ es = some p) :
    ∃ records : List Json,
      records.map stringify = p.store.history (notificationsKey user) ∧
      records.Perm (p.threads.filterMap (pushedTo double (notificationsKey user))) ∧
      p.store.lists (notificationsKey user) <+: records.map stringify ∧
      min 100 records.length ≤ (p.store.lists (notificationsKey user)).length ∧
      (p.store.lists (notificationsKey user)).length ≤
        100 + p.threads.countP (awaitsTrim (notificationsKey user)) ∧
      (p.Finished →
        records.Perm (p.threads.filterMap (calledFor double (notificationsKey user))) ∧
        ∀ i, (getNotificationHistory user).perform exec i (fun _ _ => .once .none) 0 p.store =
          some (p.store, .ok (records.take 100))) := by
  have h : KeepsNewest double (notificationsKey user) p :=
    run_invariant_of_stepsMeet (fun _ _ _ hp hsucceeds hstep => hp.step hsucceeds hstep)
      (KeepsNewest.init hempty) (stepsMeet_of_forall hsucceed _) hrun
  obtain ⟨records, hrecords, hperm⟩ := h.records
  have hlength : records.length = (p.store.history (notificationsKey user)).length := by
    rw [← hrecords, List.length_map]
  refine ⟨records, hrecords, hperm, ?_, ?_, h.capped.atMost, fun hfinished => ⟨?_, fun i => ?_⟩⟩
  · rw [hrecords]
    exact h.capped.newest
  · rw [hlength]
    exact h.capped.atLeast
  · rw [← h.pushed_eq hfinished]
    exact hperm
  · have hparsed : (p.store.lists (notificationsKey user)).mapM parse =
        some (records.take 100) := by
      rw [h.lists_eq hfinished, ← hrecords, ← List.map_take]
      exact mapM_parse_stringify _
    simp only [getNotificationHistory, Program.perform, exec_once, effect, reply,
      Option.bind_some, hparsed]

/-- Two calls for one user, both of which push before either trims. -/
def twoCalls : List (Event StoreCall Outcome) :=
  [.arrive ⟨.string "u1", .bool true⟩, .arrive ⟨.string "u1", .bool false⟩,
    .execute (0, .once .none), .execute (1, .once .none), .execute (0, .once .none),
    .execute (1, .once .none)]

theorem history_is_newest_two :
    ∃ p, run (Pool.openStep (StoreCall.serve Number.finite) exec) ⟨⟨fun _ => [], []⟩, []⟩ twoCalls =
        some p ∧
      ∃ records : List Json,
        records.Perm (p.threads.filterMap (calledFor Number.finite (notificationsKey "u1"))) ∧
        (getNotificationHistory "u1").perform exec 0 (fun _ _ => Outcome.once .none) 0 p.store =
          some (p.store, .ok (records.take 100)) := by
  have hrun : (run (Pool.openStep (StoreCall.serve Number.finite) exec) ⟨⟨fun _ => [], []⟩, []⟩
      twoCalls).isSome = true := rfl
  have hsucceed : ∀ e ∈ twoCalls, Succeeds e := by
    simp [twoCalls, Succeeds]
  have hfinished : (final _ _ _ hrun).Finished := by decide +revert
  have hempty : (fun _ => [] : Redis.Lists) (notificationsKey "u1") = [] := rfl
  obtain ⟨records, -, -, -, -, -, hended⟩ :=
    history_is_newest Number.finite hempty hsucceed (run_final hrun)
  obtain ⟨hperm, hhistory⟩ := hended hfinished
  exact ⟨_, run_final hrun, records, hperm, hhistory 0⟩

end DevopsEcommerce.NotificationWorker.Untyped
