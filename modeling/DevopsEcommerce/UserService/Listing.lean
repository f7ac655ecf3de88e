import DevopsEcommerce.Interleaving.Queries
import DevopsEcommerce.Pagination.Growth
import DevopsEcommerce.UserService.Credentials

/-!
# Listing the users

`list_users` asks for the number of users first and for a page of them, the latest first, after
that; users may register before each of the two, and nothing removes one.

So the total of an answer may be too low for the page that comes with it. A client that reads the
pages up to the one that is the last by its total misses at most as many users as have registered
between the two queries of that page, and those that it misses are older than all that it has been
shown (`users_listed`).
-/

open Interleaving Pagination

namespace DevopsEcommerce.UserService

/-! ## The handler -/

/-- The queries of `list_users`. -/
inductive ListCommand where
  | count
  | selectPage (offset limit : ℕ)

abbrev ListReply : ListCommand → Type
  | .count => Except CallError ℕ
  | .selectPage _ _ => Except CallError (List User)

structure UserListResponse where
  users : List UserResponse
  total : ℕ
  page : ℕ
  size : ℕ

/-- `list_users`. The answer is `none` for a status other than 200. -/
def listUsers (page size : ℤ) : Program ListCommand ListReply (ℕ × Option UserListResponse) :=
  -- the bounds of the two `Query` parameters
  if page < 1 ∨ size < 1 ∨ 100 < size then .done (422, none)
  else
    .call .count fun
      | .error _ => .done (500, none)
      | .ok total =>
        .call (.selectPage ((page - 1) * size).toNat size.toNat) fun
          | .error _ => .done (500, none)
          | .ok users =>
            .done (200, some ⟨users.map User.toResponse, total, page.toNat, size.toNat⟩)

/-- `User.created_at.desc()` -/
def latestFirst (user : User) : ℕᵒᵈ := OrderDual.toDual user.createdAt

/-- A query that does not succeed. -/
def ListCommand.failure : (c : ListCommand) → ListReply c
  | .count | .selectPage _ _ => .error .failed

/-- What PostgreSQL may reply. Rows of the same time come in any order, and an `OFFSET` is a
`bigint`. -/
inductive ListReplies (users : List User) : (c : ListCommand) → ListReply c → Prop
  | counted : ListReplies users .count (.ok users.length)
  | selected {order : List User} {offset : ℕ} (limit : ℕ) (hsort : SortOf latestFirst users order)
      (hoffset : offset < 2 ^ 63) :
      ListReplies users (.selectPage offset limit) (.ok ((order.drop offset).take limit))
  | failed (c : ListCommand) : ListReplies users c c.failure

/-- `list_users` while other requests are served. -/
abbrev Lists (lib : Libraries) (page size : ℤ) (p : UserPool) (answer : UserListResponse)
    (p' : UserPool) : Prop :=
  Asks (userStep lib) (fun p => ListReplies p.store.users) (listUsers page size) p
    (200, some answer) p'

/-! ## What the other requests keep -/

/-- What no request changes of a row. -/
def User.stamp (user : User) : String × ℕ := (user.id, user.createdAt)

section
variable {lib : Libraries} {p p' : UserPool}

lemma stamps_execUser {store store' : UserStore} {i : ℕ} {command : UserCommand}
    {c : Circumstances} {r : UserReply command}
    (h : execUser store i command c = some (store', r)) :
    store.users.map User.stamp <+: store'.users.map User.stamp := by
  rcases execUser_users h with
    husers | ⟨user, -, husers⟩ | ⟨id, changes, stored, time, -, -, -, husers⟩
  · exact husers ▸ List.prefix_rfl
  · rw [husers, List.map_append]
    exact List.prefix_append _ _
  · rw [husers, List.map_map]
    refine List.map_congr_left (fun user _ => ?_) ▸ List.prefix_rfl
    simp only [Function.comp_apply]
    split <;> rfl

/-- Users are distinct, and each is still there, at its place. -/
structure Grown (p p' : UserPool) : Prop where
  distinct : Distinct p'.store.users
  stamps : p.store.users.map User.stamp <+: p'.store.users.map User.stamp

lemma grown_step {e : UserEvent} (h : Distinct p.store.users)
    (hstep : userStep lib p e = some p') : Grown p p' := by
  cases e with
  | arrive req =>
    obtain rfl := Option.some.inj hstep
    exact ⟨h, List.prefix_rfl⟩
  | execute l =>
    obtain ⟨i, c⟩ := l
    obtain ⟨t, command, k, store, r, -, -, hexec, rfl⟩ := Pool.step_eq_some.mp hstep
    exact ⟨distinct_execUser h hexec, stamps_execUser hexec⟩

lemma grown_run {es : List UserEvent} (h : Distinct p.store.users)
    (hrun : run (userStep lib) p es = some p') : Grown p p' := by
  induction es generalizing p with
  | nil =>
    obtain rfl := Option.some.inj hrun
    exact ⟨h, List.prefix_rfl⟩
  | cons e es ih =>
    obtain ⟨q, hstep, hrest⟩ := run_cons_eq_some.mp hrun
    have hfirst := grown_step h hstep
    have hlater := ih hfirst.distinct hrest
    exact ⟨hlater.distinct, hfirst.stamps.trans hlater.stamps⟩

lemma Grown.length_le (h : Grown p p') : p.store.users.length ≤ p'.store.users.length := by
  simpa using h.stamps.length_le

lemma subperm_latestFirst {users users' : List User}
    (h : users.map User.stamp <+: users'.map User.stamp) :
    (users.map latestFirst).Subperm (users'.map latestFirst) := by
  have hkeys : ∀ users : List User, users.map latestFirst =
      (users.map User.stamp).map fun stamp => OrderDual.toDual stamp.2 := fun users => by
    rw [List.map_map]
    rfl
  rw [hkeys, hkeys]
  exact (h.sublist.map _).subperm

lemma nodup_latestFirst {users : List User}
    (hcreated : users.Pairwise fun user other => user.createdAt ≠ other.createdAt) :
    (users.map latestFirst).Nodup :=
  List.pairwise_map.mpr (hcreated.imp fun hne heq => hne (OrderDual.toDual_inj.mp heq))

/-- Where all times differ, the user can be told by it. -/
lemma id_eq_of_createdAt {users : List User} {user other : User}
    (hcreated : users.Pairwise fun user other => user.createdAt ≠ other.createdAt)
    (huser : user.stamp ∈ users.map User.stamp) (hother : other.stamp ∈ users.map User.stamp)
    (h : user.createdAt = other.createdAt) : user.id = other.id := by
  have hnodup : ((users.map User.stamp).map Prod.snd).Nodup := by
    rw [List.map_map]
    exact List.pairwise_map.mpr hcreated
  exact congrArg Prod.fst (List.inj_on_of_nodup_map hnodup huser hother h)

/-- A page is a slice of the users that there are in the end, and its total counts no more. -/
lemma page_of_lists {k size : ℕ} {answer : UserListResponse} (hdistinct : Distinct p.store.users)
    (h : Lists lib (k + 1) size p answer p') :
    Grown p p' ∧ answer.total ≤ p'.store.users.length ∧
      ∃ order, SortOf latestFirst p'.store.users order ∧
        answer.users = (page order k size).map User.toResponse := by
  unfold Lists listUsers at h
  split at h
  · exact absurd (asks_done h).1 (by simp)
  · obtain ⟨es, q, r, hrun, hreply, hrest⟩ := asks_call h
    have hcount := grown_run hdistinct hrun
    cases hreply with
    | failed => exact absurd (asks_done hrest).1 (by simp)
    | counted =>
      obtain ⟨es', q', r', hrun', hreply', hrest'⟩ := asks_call hrest
      have hselect := grown_run hcount.distinct hrun'
      cases hreply' with
      | failed => exact absurd (asks_done hrest').1 (by simp)
      | @selected order _ _ hsort =>
        obtain ⟨hanswer, rfl⟩ := asks_done hrest'
        obtain rfl := Option.some.inj (Prod.mk.inj hanswer).2
        refine ⟨⟨hselect.distinct, hcount.stamps.trans hselect.stamps⟩, hselect.length_le,
          order, hsort, ?_⟩
        have hoffset : (((k : ℤ) + 1 - 1) * size).toNat = k * size := by
          rw [Int.add_sub_cancel]
          exact Int.toNat_natCast (k * size)
        rw [hoffset]
        rfl

end

/-! ## Reading all pages -/

/-- Those of the users that none of the pages up to `K` shows. -/
def missed (users : List User) (answers : ℕ → UserListResponse) (K : ℕ) : List User :=
  users.filter fun user => ∀ k ≤ K, user.id ∉ (answers k).users.map UserResponse.id

section
variable {lib : Libraries} {size K : ℕ} {moments : ℕ → UserPool} {answers : ℕ → UserListResponse}
  {orders : ℕ → List User}

/-- Pages that are read in turn: page `k` shows a slice of `orders k`. -/
structure PagesRead (size K : ℕ) (moments : ℕ → UserPool) (answers : ℕ → UserListResponse)
    (orders : ℕ → List User) : Prop where
  stamps : ∀ k < K + 1,
    (moments k).store.users.map User.stamp <+: (moments (k + 1)).store.users.map User.stamp
  total : ∀ k ≤ K, (answers k).total ≤ (moments (k + 1)).store.users.length
  sort : ∀ k ≤ K, SortOf latestFirst (moments (k + 1)).store.users (orders k)
  content : ∀ k ≤ K, (answers k).users = (page (orders k) k size).map User.toResponse

lemma exists_pagesRead (hstart : Distinct (moments 0).store.users)
    (hlists : ∀ k ≤ K, Lists lib (k + 1) size (moments k) (answers k) (moments (k + 1))) :
    ∃ orders, PagesRead size K moments answers orders := by
  have hmoments : ∀ k ≤ K, Distinct (moments k).store.users := by
    intro k hk
    induction k with
    | zero => exact hstart
    | succ k ih =>
      have hk' := Nat.le_of_succ_le hk
      exact (page_of_lists (ih hk') (hlists k hk')).1.distinct
  have hpages := fun k (hk : k ≤ K) => page_of_lists (hmoments k hk) (hlists k hk)
  have horders : ∀ k ≤ K, ∃ order, SortOf latestFirst (moments (k + 1)).store.users order ∧
      (answers k).users = (page order k size).map User.toResponse := fun k hk => (hpages k hk).2.2
  choose! orders hsort hcontent using horders
  have hstamps := fun k (hk : k < K + 1) => (hpages k (Nat.le_of_lt_succ hk)).1.stamps
  exact ⟨orders, hstamps, fun k hk => (hpages k hk).2.1, hsort, hcontent⟩

namespace PagesRead

lemma stamps_le (h : PagesRead size K moments answers orders) {j k : ℕ} (hjk : j ≤ k)
    (hk : k ≤ K + 1) :
    (moments j).store.users.map User.stamp <+: (moments k).store.users.map User.stamp :=
  rel_of_le (r := fun p p' : UserPool =>
    p.store.users.map User.stamp <+: p'.store.users.map User.stamp)
    (fun _ => List.prefix_rfl) List.IsPrefix.trans h.stamps hjk hk

lemma growth (h : PagesRead size K moments answers orders) (k : ℕ) (hk : k < K) :
    ((moments (k + 1)).store.users.map latestFirst).Subperm
      ((moments (k + 1 + 1)).store.users.map latestFirst) :=
  subperm_latestFirst (h.stamps (k + 1) (Nat.succ_lt_succ hk))

lemma missed_subset (h : PagesRead size K moments answers orders) :
    (missed (moments 0).store.users answers K).map latestFirst ⊆
      (moments 1).store.users.map latestFirst := by
  have hgrown := subperm_latestFirst (h.stamps 0 (Nat.succ_pos K))
  exact List.Subset.trans (List.filter_sublist.map latestFirst).subset hgrown.subset

/-- No page shows a user of the same time. -/
lemma unseen (h : PagesRead size K moments answers orders)
    (hcreated : (moments (K + 1)).store.users.Pairwise fun user other =>
      user.createdAt ≠ other.createdAt) {user : User}
    (hmissed : user ∈ missed (moments 0).store.users answers K) {k : ℕ} (hk : k ≤ K) :
    latestFirst user ∉ (page (orders k) k size).map latestFirst := by
  intro hpage
  obtain ⟨huser, hnever⟩ := List.mem_filter.mp hmissed
  obtain ⟨y, hy, hkey⟩ := List.mem_map.mp hpage
  have hstored := (h.sort k hk).perm.subset (mem_of_mem_page hy)
  have hlater := h.stamps_le (Nat.zero_le (K + 1)) (Nat.le_refl _)
  have hlater' := h.stamps_le (Nat.succ_le_succ hk) (Nat.le_refl _)
  have hid := id_eq_of_createdAt hcreated (hlater'.subset (List.mem_map_of_mem hstored))
    (hlater.subset (List.mem_map_of_mem huser)) (OrderDual.toDual_inj.mp hkey)
  refine of_decide_eq_true hnever k hk ?_
  rw [h.content k hk, List.map_map]
  exact List.mem_map.mpr ⟨y, hy, hid⟩

lemma length_missed_le (h : PagesRead size K moments answers orders)
    (hcreated : (moments (K + 1)).store.users.Pairwise fun user other =>
      user.createdAt ≠ other.createdAt) :
    (missed (moments 0).store.users answers K).length ≤
      (moments (K + 1)).store.users.length - (K + 1) * size := by
  have hnodup := nodup_latestFirst hcreated
  obtain ⟨keys, hperm, hsublist⟩ :=
    subperm_latestFirst (h.stamps_le (Nat.zero_le (K + 1)) (Nat.le_refl _))
  have hdifferent : ((missed (moments 0).store.users answers K).map latestFirst).Nodup :=
    (hperm.nodup_iff.mp (hnodup.sublist hsublist)).sublist (List.filter_sublist.map latestFirst)
  have hbound := length_unseen_le h.sort h.growth hnodup hdifferent h.missed_subset
    (List.forall_mem_map.mpr fun _ hmissed _ hk => h.unseen hcreated hmissed hk)
  rwa [List.length_map] at hbound

/-- Those that are missed stand behind every page. -/
lemma createdAt_lt (h : PagesRead size K moments answers orders)
    (hcreated : (moments (K + 1)).store.users.Pairwise fun user other =>
      user.createdAt ≠ other.createdAt) {user : User}
    (hmissed : user ∈ missed (moments 0).store.users answers K) {k : ℕ} (hk : k ≤ K)
    {shown : UserResponse} (hshown : shown ∈ (answers k).users) :
    user.createdAt < shown.createdAt := by
  rw [h.content k hk] at hshown
  obtain ⟨y, hy, rfl⟩ := List.mem_map.mp hshown
  have hunseen := fun k (hk : k ≤ K) => h.unseen hcreated hmissed hk
  have hbehind := mem_drop_of_unseen h.sort h.growth (nodup_latestFirst hcreated)
    (h.missed_subset (List.mem_map_of_mem hmissed)) hunseen hk
  obtain ⟨z, hz, hkey⟩ := List.mem_map.mp hbehind
  have hle := hkey ▸ (h.sort k hk).le_of_page hy hz
  refine lt_of_le_of_ne hle fun heq => hunseen k hk ?_
  exact List.mem_map.mpr ⟨y, hy, congrArg OrderDual.toDual heq.symm⟩

end PagesRead

end

/-- **What a reader of the user list misses.** A client reads the pages in turn, up to one that is
the last by its total, while other requests are served in any order and whatever fails; these
reads do not. If no two users have been created at the same time, then of the users that there were
when the client began it misses at most as many as have registered since the last total was
counted, and all that it has been shown have been created later than these. -/
theorem users_listed {lib : Libraries} {users : List User} {es : List UserEvent} {size K : ℕ}
    {moments : ℕ → UserPool} {answers : ℕ → UserListResponse} (hdistinct : Distinct users)
    (hrun : run (userStep lib) (UserPool.initial users) es = some (moments 0))
    (hlists : ∀ k ≤ K, Lists lib (k + 1) size (moments k) (answers k) (moments (k + 1)))
    (hlast : (answers K).total ≤ (K + 1) * size)
    (hcreated : (moments (K + 1)).store.users.Pairwise fun user other =>
      user.createdAt ≠ other.createdAt) :
    (missed (moments 0).store.users answers K).length + (answers K).total ≤
      (moments (K + 1)).store.users.length ∧
    ∀ user ∈ missed (moments 0).store.users answers K, ∀ k ≤ K, ∀ shown ∈ (answers k).users,
      user.createdAt < shown.createdAt := by
  have hstart := grown_run hdistinct hrun
  obtain ⟨orders, hpages⟩ := exists_pagesRead hstart.distinct hlists
  constructor
  · have hmissed := hpages.length_missed_le hcreated
    have htotal := hpages.total K (Nat.le_refl K)
    omega
  · intro user hmissed k hk shown hshown
    exact hpages.createdAt_lt hcreated hmissed hk hshown

/-- The service with two users, of whom `"u"` is the older one. -/
def twoUsers : UserPool :=
  UserPool.initial [sampleUser, { sampleUser with id := "v", email := "f", createdAt := 10 }]

/-- A third one registers. -/
def registration : List UserEvent :=
  [.arrive (.register ⟨"g", "n", "pw"⟩ "w" ""), .execute (0, ⟨0, 20, .none⟩)]

lemma isSome_registration :
    (run (userStep plainLibraries) twoUsers registration).isSome = true := by
  decide +kernel

def threeUsers : UserPool := final _ _ _ isSome_registration

/-- The third user comes between the count and the select of the second page. -/
def userMoment (k : ℕ) : UserPool := if k ≤ 1 then twoUsers else threeUsers

def userPage (k : ℕ) : UserListResponse where
  users := (page (userMoment (k + 1)).store.users.reverse k 1).map User.toResponse
  total := 2
  page := k + 1
  size := 1

/-- The second page shows the second user once more, and the first one is missed. -/
theorem users_listed_registering :
    (missed twoUsers.store.users userPage 1).map User.id = ["u"] ∧
      (missed twoUsers.store.users userPage 1).length + 2 ≤ threeUsers.store.users.length := by
  have hstay : run (userStep plainLibraries) twoUsers [] = some twoUsers := rfl
  have hlists : ∀ k : ℕ, k ≤ 1 → Lists plainLibraries (k + 1) 1 (userMoment k) (userPage k)
      (userMoment (k + 1)) := by
    intro k hk
    rcases k with _ | _ | k
    · have hsort : SortOf latestFirst twoUsers.store.users twoUsers.store.users.reverse :=
        ⟨List.reverse_perm _, by decide⟩
      have hselect := ListReplies.selected 1 hsort (show 0 < 2 ^ 63 by decide)
      exact .call hstay .counted (.call hstay hselect (.done _ _))
    · have hsort : SortOf latestFirst threeUsers.store.users threeUsers.store.users.reverse :=
        ⟨List.reverse_perm _, by decide +kernel⟩
      have hselect := ListReplies.selected 1 hsort (show 1 < 2 ^ 63 by decide)
      exact .call hstay .counted (.call (run_final isSome_registration) hselect (.done _ _))
    · omega
  have hdistinct : Distinct twoUsers.store.users := by
    unfold Distinct
    decide
  have hrun : run (userStep plainLibraries) (UserPool.initial twoUsers.store.users) [] =
      some (userMoment 0) := rfl
  exact ⟨by decide +kernel,
    (users_listed hdistinct hrun hlists (by decide) (by decide +kernel)).1⟩

end DevopsEcommerce.UserService
