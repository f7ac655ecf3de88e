import DevopsEcommerce.NotificationWorker.Deliveries
import DevopsEcommerce.NotificationWorker.HttpServer

/-!
# What a user is shown

The HTTP server reads the lists that the callbacks write. Whatever has happened to the worker
before, the history of a user consists of records of events about this user, and all of them
count as unread (`shown_notifications`).
-/

open Interleaving Js

namespace DevopsEcommerce.NotificationWorker.Untyped

/-- The text of a record, as it is pushed. -/
def textOf (r : Notification) : String := stringify (notificationJson r)

/-- What the listener sends. -/
def responses (p : Listener (Except Exception Unit)) (reply : Replies) : List Response :=
  (p.asked reply).filterMap HttpCommand.response?

/-! ## Reading records -/

/-- A record is written as it was read. -/
lemma written_notificationJson (double : Json.NumberLiteral → Number) (r : Notification) :
    written double (notificationJson r) = notificationJson r := by
  have hnames : ["id", "type", "orderId", "message", "channel", "sentAt", "status"].eraseDups =
      ["id", "type", "orderId", "message", "channel", "sentAt", "status"] := by decide
  have hindices : ["id", "type", "orderId", "message", "channel", "sentAt", "status"].filter
      isIndex = [] := by decide
  have hothers : ["id", "type", "orderId", "message", "channel", "sentAt", "status"].filter
      (fun name => !isIndex name) =
        ["id", "type", "orderId", "message", "channel", "sentAt", "status"] := by decide
  simp only [notificationJson, written, writtenMembers, ownProperties, List.map_cons, List.map_nil,
    hnames, hindices, hothers, List.mergeSort_nil, List.nil_append]
  rfl

lemma writtenItems_notificationJson (double : Json.NumberLiteral → Number)
    (rs : List Notification) :
    writtenItems double (rs.map notificationJson) = rs.map notificationJson := by
  induction rs with
  | nil => rfl
  | cons r rs ih => rw [List.map_cons, writtenItems, ih, written_notificationJson]

lemma mapM_parse_textOf (rs : List Notification) :
    (rs.map textOf).mapM parse = some (rs.map notificationJson) := by
  have htexts : rs.map textOf = (rs.map notificationJson).map stringify := by
    rw [List.map_map]
    rfl
  rw [htexts, mapM_parse_stringify]

/-- The loop counts the records that are unread. -/
lemma countUnread_textOf (rs : List Notification) (count : ℕ) :
    countUnread (rs.map textOf) count =
      .ok (count + rs.countP fun r => r.status = "unread") := by
  induction rs generalizing count with
  | nil => rfl
  | cons r rs ih =>
    have hstatus : property (notificationJson r) "status" = some (.string r.status) := rfl
    rw [List.map_cons, countUnread, textOf, parse_stringify]
    have hobject : ∃ members, notificationJson r = .object members := ⟨_, rfl⟩
    obtain ⟨members, hmembers⟩ := hobject
    rw [hmembers] at hstatus ⊢
    simp only [hstatus, List.countP_cons]
    by_cases hunread : r.status = "unread"
    · simp only [hunread, ih, decide_true, if_true]
      congr 1
      omega
    · simp only [hunread, decide_false, Bool.false_eq_true, if_false, Nat.add_zero]
      split
      · rename_i heq
        exact absurd (Json.string.inj (Option.some.inj heq)) hunread
      · exact ih count

/-! ## Requests -/

section
variable {process : Process} {reply : Replies} {userId : String}

/-- The unread count of a list of records. -/
lemma responses_unread {rs : List Notification}
    (hreply : reply (.redis (.lrange (notificationsKey userId))) = .ok (rs.map textOf))
    (body : ℕ → Json) :
    responses (answer process (getUnreadCount userId) body) reply =
      [json 200 (body (rs.countP fun r => r.status = "unread"))] := by
  have hcount := countUnread_textOf rs 0
  rw [Nat.zero_add] at hcount
  simp only [responses, answer, getUnreadCount, Program.embed, Program.bind, Program.asked, hreply,
    hcount]
  rfl

/-- The history of a list of records. -/
lemma responses_history {rs : List Notification}
    (hreply : reply (.redis (.lrange (notificationsKey userId))) = .ok (rs.map textOf))
    (body : List Json → Json) :
    responses (answer process (getNotificationHistory userId) body) reply =
      [json 200 (body (rs.map notificationJson))] := by
  simp only [responses, answer, getNotificationHistory, Program.embed, Program.bind, Program.asked,
    hreply, mapM_parse_textOf]
  rfl

/-- What the listener sends for a user whose list has these records. -/
lemma responses_listener {url user : String} {rs : List Notification}
    (huser : requestedUser "GET" url = some user)
    (hdecode : Uri.decodeURIComponent user = some userId)
    (hreply : reply (.redis (.lrange (notificationsKey userId))) = .ok (rs.map textOf)) :
    responses (listener process "GET" url) reply =
      [json 200 (if (unreadMatch url).isSome then
        .object [("userId", .string userId),
          ("unreadCount", .number (Json.natLiteral (rs.countP fun r => r.status = "unread")))]
      else
        .object [("userId", .string userId),
          ("notifications", .array (rs.map notificationJson))])] := by
  obtain ⟨hmetrics, hhealth⟩ := ne_of_requestedUser huser
  unfold requestedUser at huser
  rw [if_pos rfl] at huser
  unfold listener
  rw [if_neg hmetrics, if_neg hhealth, if_pos rfl, if_pos rfl]
  cases hunread : unreadMatch url with
  | some unread =>
    rw [hunread] at huser
    obtain rfl : unread = user := Option.some.inj huser
    simp only [hdecode]
    exact responses_unread hreply _
  | none =>
    rw [hunread, Option.none_or] at huser
    simp only [huser, hdecode]
    rw [responses_history hreply, writtenItems_notificationJson]
    rfl

end

/-! ## Records of the user -/

lemma notificationsKey_injective : Function.Injective notificationsKey := fun _ _ h =>
  (String.append_right_inj "notifications:").mp h

/-- Whatever has happened to a worker that found no lists in Redis, a request for the history of a
user is answered with the list of the user, and one for the unread count with the length of it;
and the list has no records but those of events about the user that were published. -/
theorem shown_notifications {prefetch : ℕ} {es : List Label} {t : Worker} {process : Process}
    {reply : Replies} {url user userId : String}
    (hrun : run (Worker.step prefetch) (Worker.initial fun _ => []) es = some t)
    (huser : requestedUser "GET" url = some user)
    (hdecode : Uri.decodeURIComponent user = some userId)
    (hreply : reply (.redis (.lrange (notificationsKey userId))) =
      .ok ((t.redis.lists (notificationsKey userId)).map textOf)) :
    responses (listener process "GET" url) reply =
        [json 200 (if (unreadMatch url).isSome then
          .object [("userId", .string userId), ("unreadCount",
            .number (Json.natLiteral (t.redis.lists (notificationsKey userId)).length))]
        else
          .object [("userId", .string userId), ("notifications",
            .array ((t.redis.lists (notificationsKey userId)).map notificationJson))])] ∧
      ∀ r ∈ t.redis.lists (notificationsKey userId), ∃ queue order,
        .publish queue (some order) ∈ es ∧ NotificationWorker.userIdOf order = userId ∧
          Worker.RecordOf queue order r := by
  have ht : Worker.Accounted (fun _ => []) t :=
    run_invariant (Worker.accounted_preserved _) (Worker.Accounted.initial _) hrun
  have hrecords : ∀ r ∈ t.redis.lists (notificationsKey userId), ∃ queue order,
      .publish queue (some order) ∈ es ∧ NotificationWorker.userIdOf order = userId ∧
        Worker.RecordOf queue order r := by
    intro r hr
    obtain ⟨queue, m, order, hm, horder, hkey, hrecord⟩ :=
      ht.received _ ((ht.listed _ r hr).resolve_left List.not_mem_nil)
    exact ⟨queue, order, horder ▸ (Worker.published_of_initial hrun hm).2,
      (notificationsKey_injective hkey).symm, hrecord⟩
  refine ⟨?_, hrecords⟩
  -- every record that is written is unread, and stays so
  have hunread : (t.redis.lists (notificationsKey userId)).countP
      (fun r => r.status = "unread") = (t.redis.lists (notificationsKey userId)).length := by
    refine List.countP_eq_length.mpr fun r hr => decide_eq_true ?_
    obtain ⟨queue, order, -, -, ch, -, stamp, rfl⟩ := hrecords r hr
    rfl
  rw [responses_listener huser hdecode hreply, hunread]

/-- Redis replies what has been stored. -/
def storedReplies (t : Worker) : Replies
  | .redis (.lrange key) => .ok ((t.redis.lists key).map textOf)
  | .redis (.lpush ..) => .ok ()
  | .redis (.ltrim ..) => .ok ()
  | .metrics => .ok ""
  | .respond _ => ()

/-- The history of `u1` after one event. -/
theorem shown_notifications_one :
    ∃ t, run (Worker.step 10) (Worker.initial fun _ => []) (Worker.oneMessage false) = some t ∧
      ∀ r ∈ t.redis.lists (notificationsKey "u1"), ∃ queue order,
        .publish queue (some order) ∈ Worker.oneMessage false ∧
          NotificationWorker.userIdOf order = "u1" ∧ Worker.RecordOf queue order r := by
  have hrun : run (Worker.step 10) (Worker.initial fun _ => []) (Worker.oneMessage false) =
      some _ := run_final (by decide)
  let reply : Replies := storedReplies (final (Worker.step 10) (Worker.initial fun _ => [])
    (Worker.oneMessage false) (by decide))
  have huser : requestedUser "GET" "/api/notifications/u1" = some "u1" := by decide
  have hdecode : Uri.decodeURIComponent "u1" = some "u1" := by decide
  have hreply : reply (.redis (.lrange (notificationsKey "u1"))) = .ok _ := rfl
  let process : Process := ⟨Number.finite, "text/plain", fun _ => "", true⟩
  exact ⟨_, hrun, (@shown_notifications _ _ _ process _ _ _ _ hrun huser hdecode hreply).2⟩

end DevopsEcommerce.NotificationWorker.Untyped
