import DevopsEcommerce.UserService.Listing

/-!
# What a registration is worth

The unique indexes of the table are all that keeps two concurrent registrations apart. A request
that has been answered 201 has inserted a row, that row stays, and it is the row of no other such
request (`registrations_kept`).
-/

open Interleaving

namespace DevopsEcommerce.UserService

/-- The request has been told that the row with this id is inserted. -/
def HasInserted (t : UserThread) (uuid : String) : Prop :=
  ∃ email name hashedPassword,
    ⟨.commitInsert uuid email name hashedPassword, .ok ()⟩ ∈ t.trace

/-- The id of a registration that has been answered 201. -/
def registered? (t : UserThread) : Option String :=
  match t.request, t.program with
  | .register _ uuid _, .done answer => if answer.status = 201 then some uuid else none
  | _, _ => none

def registeredIds (p : UserPool) : List String := p.threads.filterMap registered?

section
variable {lib : Libraries} {p p' : UserPool} {users : List User}

/-! ## Inserts -/

lemma users_of_insert {store store' : UserStore} {i : ℕ} {c : Circumstances}
    {uuid email name hashedPassword : String}
    (hexec : execUser store i (.commitInsert uuid email name hashedPassword) c =
      some (store', .ok ())) :
    (∃ row, row.id = uuid ∧ store'.users = store.users ++ [row]) ∧
      ∀ other ∈ store.users, other.id ≠ uuid := by
  have hcommit := Option.some.inj hexec
  have hresult := commit_ok (congrArg Prod.snd hcommit)
  rw [congrArg Prod.fst hcommit] at hresult
  obtain ⟨row, hstored, husers, hother⟩ := insertUser_eq_ok hresult
  obtain ⟨-, -, name, -, rfl⟩ := User.stored_eq_some hstored
  exact ⟨⟨_, rfl, husers⟩, fun other hmem => (hother other hmem).1⟩

lemma hasInserted_receive {t : UserThread} {command : UserCommand} {r : UserReply command}
    {rest : UserProgram} {uuid : String} (h : HasInserted (t.receive command r rest) uuid) :
    HasInserted t uuid ∨ ∃ email name hashedPassword,
      (⟨command, r⟩ : Σ c, UserReply c) =
        ⟨.commitInsert uuid email name hashedPassword, .ok ()⟩ := by
  obtain ⟨email, name, hashedPassword, hmem⟩ := h
  rcases List.mem_cons.mp hmem with hnew | hold
  · exact .inr ⟨email, name, hashedPassword, hnew.symm⟩
  · exact .inl ⟨email, name, hashedPassword, hold⟩

lemma exists_id_of_stamps {users' : List User} {uuid : String}
    (h : users.map User.stamp <+: users'.map User.stamp) (hold : ∃ user ∈ users, user.id = uuid) :
    ∃ user ∈ users', user.id = uuid := by
  obtain ⟨user, huser, rfl⟩ := hold
  obtain ⟨user', huser', hstamp⟩ := List.mem_map.mp (h.subset (List.mem_map_of_mem huser))
  exact ⟨user', huser', congrArg Prod.fst hstamp⟩

/-! ## The invariant -/

/-- Each insert that a request has been told of has a row of its own, beside those of `users`. -/
structure Inserted (lib : Libraries) (users : List User) (p : UserPool) : Prop where
  serves : Pool.Serves (serve lib) p
  distinct : Distinct p.store.users
  stamps : users.map User.stamp <+: p.store.users.map User.stamp
  told : ∀ t ∈ p.threads, ∀ uuid, HasInserted t uuid → ∃ user ∈ p.store.users, user.id = uuid
  new : ∀ t ∈ p.threads, ∀ uuid, HasInserted t uuid → ∀ user ∈ users, user.id ≠ uuid
  apart : ∀ (i j : ℕ) (t u : UserThread), p.threads[i]? = some t → p.threads[j]? = some u → i ≠ j →
    ∀ uuid, HasInserted t uuid → ¬ HasInserted u uuid

lemma not_hasInserted_arriving (req : UserRequest) (program : UserProgram) (uuid : String) :
    ¬ HasInserted ⟨req, [], program⟩ uuid :=
  fun ⟨_, _, _, hmem⟩ => List.not_mem_nil hmem

lemma inserted_arrive (h : Inserted lib users p) (req : UserRequest) :
    Inserted lib users (p.arrive (serve lib) req) where
  serves := by
    have hserves : Preserved (userStep lib) (Pool.Serves (serve lib)) := Pool.serves_openPreserved
    exact hserves p (.arrive req) _ h.serves rfl
  distinct := h.distinct
  stamps := h.stamps
  told := Pool.forall_arrive h.told fun uuid hnew =>
    absurd hnew (not_hasInserted_arriving _ _ uuid)
  new := Pool.forall_arrive h.new fun uuid hnew => absurd hnew (not_hasInserted_arriving _ _ uuid)
  apart i j t u ht hu hij uuid htold hutold := by
    rcases Pool.thread_of_arrive ht with hold | ⟨-, rfl⟩
    · rcases Pool.thread_of_arrive hu with hold' | ⟨-, rfl⟩
      · exact h.apart i j t u hold hold' hij uuid htold hutold
      · exact not_hasInserted_arriving _ _ uuid hutold
    · exact not_hasInserted_arriving _ _ uuid htold

lemma inserted_execute {l : ℕ × Circumstances} (h : Inserted lib users p)
    (hstep : Pool.step execUser p l = some p') : Inserted lib users p' := by
  have hserves := Pool.serves_openPreserved p (.execute l) p' h.serves hstep
  obtain ⟨t, command, k, store, r, ht, hk, hexec, rfl⟩ := Pool.step_eq_some.mp hstep
  have hmem := List.mem_of_getElem? ht
  have hstamps := stamps_execUser hexec
  -- a row that the thread inserts has an id that no row has had
  have hfresh : ∀ uuid, HasInserted (t.receive command r (k r)) uuid →
      HasInserted t uuid ∨ (∃ user ∈ store.users, user.id = uuid) ∧
        ∀ other ∈ p.store.users, other.id ≠ uuid := by
    intro uuid hinserted
    rcases hasInserted_receive hinserted with hold | ⟨email, name, hashedPassword, hnew⟩
    · exact .inl hold
    · obtain ⟨rfl, hr⟩ := Sigma.mk.inj hnew
      obtain rfl := eq_of_heq hr
      obtain ⟨⟨row, hid, husers⟩, hother⟩ := users_of_insert hexec
      exact .inr ⟨⟨row, husers ▸ List.mem_append_right _ List.mem_cons_self, hid⟩, hother⟩
  have hothers : ∀ (j : ℕ) (u : UserThread), p.threads[j]? = some u → l.1 ≠ j → ∀ uuid,
      HasInserted (t.receive command r (k r)) uuid → ¬ HasInserted u uuid := by
    intro j u hu hij uuid hinserted hutold
    rcases hfresh uuid hinserted with hold | ⟨-, hother⟩
    · exact h.apart l.1 j t u ht hu hij uuid hold hutold
    · obtain ⟨user, huser, hid⟩ := h.told u (List.mem_of_getElem? hu) uuid hutold
      exact hother user huser hid
  refine ⟨hserves, distinct_execUser h.distinct hexec, h.stamps.trans hstamps, ?_, ?_, ?_⟩
  · refine forall_mem_set l.1 (fun u hu uuid htold =>
      exists_id_of_stamps hstamps (h.told u hu uuid htold)) fun uuid hinserted => ?_
    rcases hfresh uuid hinserted with hold | ⟨hrow, -⟩
    · exact exists_id_of_stamps hstamps (h.told t hmem uuid hold)
    · exact hrow
  · refine forall_mem_set l.1 h.new fun uuid hinserted user huser heq => ?_
    rcases hfresh uuid hinserted with hold | ⟨-, hother⟩
    · exact h.new t hmem uuid hold user huser heq
    · obtain ⟨other, hother', hid⟩ := exists_id_of_stamps h.stamps ⟨user, huser, heq⟩
      exact hother other hother' hid
  · intro i j t₁ u₁ ht₁ hu₁ hij uuid htold hutold
    rcases getElem?_set_eq_some ht₁ with ⟨rfl, rfl⟩ | ⟨-, hold⟩
    · rcases getElem?_set_eq_some hu₁ with ⟨rfl, -⟩ | ⟨-, hold'⟩
      · exact hij rfl
      · exact hothers j u₁ hold' hij uuid htold hutold
    · rcases getElem?_set_eq_some hu₁ with ⟨rfl, rfl⟩ | ⟨-, hold'⟩
      · exact hothers i t₁ hold (Ne.symm hij) uuid hutold htold
      · exact h.apart i j t₁ u₁ hold hold' hij uuid htold hutold

/-- The answer 201 comes after the insert. -/
lemma hasInserted_of_registered {t : UserThread}
    (hserves : Program.Follows (serve lib t.request) t.trace t.program) {uuid : String}
    (hregistered : registered? t = some uuid) : HasInserted t uuid := by
  obtain ⟨request, trace, program⟩ := t
  cases request with
  | register body uuid' salt =>
    cases program with
    | call c k => cases hregistered
    | done answer =>
      simp only [registered?, Option.ite_none_right_eq_some, Option.some.injEq]
        at hregistered
      obtain ⟨hstatus, rfl⟩ := hregistered
      rcases Program.follows_call hserves with ⟨-, hcall⟩ | ⟨result, rest, rfl, hrest⟩
      · cases hcall
      · rcases result with (_ | _) | _
        · obtain ⟨-, hrefused⟩ := Program.follows_done hrest
          rw [Program.done.inj hrefused] at hstatus
          exact absurd hstatus (by decide)
        · obtain ⟨-, hfailed⟩ := Program.follows_done hrest
          rw [Program.done.inj hfailed] at hstatus
          exact absurd hstatus (by decide)
        · exact ⟨_, _, _, List.mem_append_right _ List.mem_cons_self⟩
  | _ => cases hregistered

lemma nodup_registeredIds (h : Inserted lib users p) : (registeredIds p).Nodup := by
  unfold registeredIds List.Nodup
  rw [List.pairwise_filterMap, List.pairwise_iff_getElem]
  intro i j hi hj hij uuid huuid uuid' huuid' heq
  have hinserted := fun k (hk : k < p.threads.length) uuid
      (hregistered : registered? p.threads[k] = some uuid) =>
    hasInserted_of_registered (h.serves _ (List.getElem_mem hk)) hregistered
  have hother := hinserted j hj uuid' huuid'
  exact h.apart i j _ _ (List.getElem?_eq_getElem hi) (List.getElem?_eq_getElem hj)
    (Nat.ne_of_lt hij) uuid (hinserted i hi uuid huuid) (heq ▸ hother)

end

/-! ## Runs -/

/-- **No registration is lost.** In every interleaving and whatever fails, no two users have one id
or one email, and the ids of the users that there were at first and of all registrations that have
been answered 201 are the ids of as many different rows. -/
theorem registrations_kept {lib : Libraries} {users : List User} {es : List UserEvent}
    {p : UserPool} (hdistinct : Distinct users)
    (hrun : run (userStep lib) (UserPool.initial users) es = some p) :
    Distinct p.store.users ∧
      (users.map User.id ++ registeredIds p).Subperm (p.store.users.map User.id) := by
  have hstart : Inserted lib users (UserPool.initial users) :=
    ⟨fun t ht => absurd ht List.not_mem_nil, hdistinct, List.prefix_rfl,
      fun t ht => absurd ht List.not_mem_nil, fun t ht => absurd ht List.not_mem_nil,
      fun i j t u ht => absurd ht (by simp [UserPool.initial])⟩
  have hpreserved : Preserved (userStep lib) (Inserted lib users) := by
    intro p e p' h hstep
    cases e with
    | arrive req =>
      obtain rfl := Option.some.inj hstep
      exact inserted_arrive h req
    | execute l => exact inserted_execute h hstep
  have h : Inserted lib users p := run_invariant hpreserved hstart hrun
  have hinserted : ∀ uuid ∈ registeredIds p, ∃ t ∈ p.threads, HasInserted t uuid := by
    intro uuid huuid
    obtain ⟨t, ht, hregistered⟩ := List.mem_filterMap.mp huuid
    exact ⟨t, ht, hasInserted_of_registered (h.serves t ht) hregistered⟩
  have hids : (users.map User.id).Nodup :=
    List.pairwise_map.mpr (hdistinct.imp fun hboth => hboth.1)
  refine ⟨h.distinct, (List.nodup_append.mpr ⟨hids, nodup_registeredIds h, ?_⟩).subperm ?_⟩
  · rintro id hold uuid huuid rfl
    obtain ⟨user, huser, rfl⟩ := List.mem_map.mp hold
    obtain ⟨t, ht, htold⟩ := hinserted _ huuid
    exact h.new t ht _ htold user huser rfl
  · intro id hid
    have hrow : ∃ user ∈ p.store.users, user.id = id := by
      rcases List.mem_append.mp hid with hold | hnew
      · exact exists_id_of_stamps h.stamps (List.mem_map.mp hold)
      · obtain ⟨t, ht, htold⟩ := hinserted id hnew
        exact h.told t ht id htold
    exact List.mem_map.mpr hrow

/-- Two requests register one email. -/
def rivals : List UserEvent :=
  [.arrive (.register ⟨"e", "n", "pw"⟩ "u" ""), .arrive (.register ⟨"e", "m", "pw"⟩ "v" ""),
    proceed 1, proceed 0, proceed 1]

lemma isSome_rivals :
    (run (userStep plainLibraries) (UserPool.initial []) rivals).isSome = true := by
  decide +kernel

/-- The second one is the first to insert, and the other one is answered 409. -/
theorem registrations_kept_rivals :
    (final _ _ _ isSome_rivals).threads.map (fun t => t.program.answer?.map Response.status) =
        [some 409, some 201] ∧
      ["v"].Subperm ((final _ _ _ isSome_rivals).store.users.map User.id) := by
  have hids : registeredIds (final _ _ _ isSome_rivals) = ["v"] := by
    decide +kernel
  have h := (registrations_kept .nil (run_final isSome_rivals)).2
  rw [hids] at h
  exact ⟨by decide +kernel, h⟩

end DevopsEcommerce.UserService
