import DevopsEcommerce.Js.Uri
import DevopsEcommerce.Json.Naturals
import DevopsEcommerce.NotificationWorker.Untyped

/-!
# The HTTP server of the worker

The listener of `http.createServer` as a program that reads from Redis, collects the metrics and
responds. An exception that the listener does not catch rejects its promise, which nobody
handles, so that the process ends. This happens for the requests that name a user by a text that
`decodeURIComponent` refuses, and for no others (`listener_survives_iff`).
-/

open Interleaving Js

namespace DevopsEcommerce.NotificationWorker.Untyped

structure Response where
  status : ℕ
  contentType : Option String
  body : String
deriving DecidableEq

inductive HttpCommand where
  | redis (c : Command)
  /-- `register.metrics()` -/
  | metrics
  | respond (response : Response)

abbrev HttpReply : HttpCommand → Type
  | .redis c => Reply c
  | .metrics => Except Exception String
  | .respond _ => Unit

abbrev Listener (α : Type) := Program HttpCommand HttpReply α

/-- What the listener finds in its process: the content type of the metrics, the messages of
exceptions, and whether there is a channel. -/
structure Process where
  double : Json.NumberLiteral → Number
  contentType : String
  message : Exception → String
  hasChannel : Bool

/-- The only group of `/^\/api\/notifications\/([^/]+)<rest>$/`. -/
def matchUser (rest url : String) : Option String :=
  let path := "/api/notifications/".toList
  if path.isPrefixOf url.toList then
    let user := (url.toList.drop path.length).takeWhile fun c => c ≠ '/'
    let after := (url.toList.drop path.length).dropWhile fun c => c ≠ '/'
    if user ≠ [] ∧ after = rest.toList then some (String.ofList user) else none
  else none

def unreadMatch (url : String) : Option String := matchUser "/unread" url

def historyMatch (url : String) : Option String := matchUser "" url

/-- `res.end` after `res.writeHead`. -/
def respond (response : Response) : Listener (Except Exception Unit) :=
  .call (.respond response) fun _ => .done (.ok ())

def json (status : ℕ) (body : Json) : Response where
  status := status
  contentType := some "application/json"
  body := stringify body

/-- The `try` and `catch` around a query about a user. -/
def answer {α : Type} (process : Process) (query : Async α) (body : α → Json) :
    Listener (Except Exception Unit) :=
  (query.embed HttpCommand.redis fun _ r => r).bind fun
    | .ok value => respond (json 200 (body value))
    | .error err => respond (json 500 (.object [("error", .string (process.message err))]))

def listener (process : Process) (method url : String) : Listener (Except Exception Unit) :=
  if url = "/metrics" then
    .call .metrics fun
      | .error err => .done (.error err)
      | .ok text => respond ⟨200, some process.contentType, text⟩
  else if url = "/health" then
    respond (json (if process.hasChannel then 200 else 503)
      (.object [("status", .string (if process.hasChannel then "ok" else "unhealthy"))]))
  else
    match if method = "GET" then unreadMatch url else none with
    | some user =>
      match Uri.decodeURIComponent user with
      | none => .done (.error .uriError)
      | some userId =>
        answer process (getUnreadCount userId) fun count =>
          .object [("userId", .string userId), ("unreadCount", .number (Json.natLiteral count))]
    | none =>
      match if method = "GET" then historyMatch url else none with
      | some user =>
        match Uri.decodeURIComponent user with
        | none => .done (.error .uriError)
        | some userId =>
          answer process (getNotificationHistory userId) fun notifications =>
            .object [("userId", .string userId),
              ("notifications", .array (writtenItems process.double notifications))]
      | none => respond ⟨404, none, "Not Found"⟩

/-! ## Requests that the process survives -/

/-- The replies to the commands of one call. It issues none of them twice. -/
abbrev Replies := (c : HttpCommand) → HttpReply c

/-- The registry collects its metrics without an error. -/
def MetricsResolve (reply : Replies) : Prop := ∃ text, reply .metrics = .ok text

def HttpCommand.response? : HttpCommand → Option Response
  | .respond response => some response
  | _ => none

/-- The promise of the call resolves, and exactly one response has been sent. -/
def Answers (p : Listener (Except Exception Unit)) (reply : Replies) : Prop :=
  p.evaluate reply = .ok () ∧ ((p.asked reply).filterMap HttpCommand.response?).length = 1

/-- The user's part of the path, if the request asks for the history or the unread count. -/
def requestedUser (method url : String) : Option String :=
  if method = "GET" then (unreadMatch url).or (historyMatch url) else none

variable {process : Process} {reply : Replies}

lemma answers_respond (response : Response) : Answers (respond response) reply :=
  ⟨rfl, rfl⟩

/-- A query is answered whether it fails or not. -/
lemma answers_answer {α : Type} (query : Async α) (body : α → Json) :
    Answers (answer process query body) reply := by
  induction query with
  | done result =>
    cases result with
    | error err => exact answers_respond _
    | ok value => exact answers_respond _
  | call c k ih => exact ih (reply (.redis c))

/-- Neither `/metrics` nor `/health` names a user. -/
lemma ne_of_requestedUser {method url user : String} (h : requestedUser method url = some user) :
    url ≠ "/metrics" ∧ url ≠ "/health" := by
  unfold requestedUser at h
  have hmetrics : (unreadMatch "/metrics").or (historyMatch "/metrics") = none := by decide
  have hhealth : (unreadMatch "/health").or (historyMatch "/health") = none := by decide
  constructor
  · rintro rfl
    rw [hmetrics, ite_self] at h
    cases h
  · rintro rfl
    rw [hhealth, ite_self] at h
    cases h

/-- The text is decoded outside of every `try`. -/
lemma listener_of_requestedUser {method url user : String}
    (h : requestedUser method url = some user) (reply : Replies) :
    (Uri.decodeURIComponent user = none →
        listener process method url = .done (.error .uriError)) ∧
      (Uri.decodeURIComponent user ≠ none → Answers (listener process method url) reply) := by
  obtain ⟨hmetrics, hhealth⟩ := ne_of_requestedUser h
  unfold requestedUser at h
  unfold listener
  rw [if_neg hmetrics, if_neg hhealth]
  split at h
  · rename_i hget
    rw [if_pos hget, if_pos hget]
    cases hunread : unreadMatch url with
    | some unread =>
      rw [hunread] at h
      obtain rfl : unread = user := Option.some.inj h
      simp only
      cases hdecode : Uri.decodeURIComponent unread with
      | none => exact ⟨fun _ => rfl, fun hne => absurd rfl hne⟩
      | some userId => exact ⟨fun hnone => (by cases hnone), fun _ => answers_answer _ _⟩
    | none =>
      rw [hunread, Option.none_or] at h
      simp only [h]
      cases hdecode : Uri.decodeURIComponent user with
      | none => exact ⟨fun _ => rfl, fun hne => absurd rfl hne⟩
      | some userId => exact ⟨fun hnone => (by cases hnone), fun _ => answers_answer _ _⟩
  · cases h

/-- All other requests are answered without a text to decode. -/
lemma answers_listener_of_none {method url : String} (h : requestedUser method url = none)
    (hmetrics : MetricsResolve reply) : Answers (listener process method url) reply := by
  have hnone : (if method = "GET" then unreadMatch url else none) = none ∧
      (if method = "GET" then historyMatch url else none) = none := by
    unfold requestedUser at h
    by_cases hget : method = "GET"
    · rw [if_pos hget] at h ⊢
      rw [if_pos hget]
      exact Option.or_eq_none_iff.mp h
    · rw [if_neg hget]
      exact ⟨rfl, if_neg hget⟩
  unfold listener
  rw [hnone.1, hnone.2]
  split
  · obtain ⟨text, htext⟩ := hmetrics
    unfold Answers
    simp only [Program.evaluate, Program.asked, htext]
    exact answers_respond _
  split
  · exact answers_respond _
  · exact answers_respond _

lemma subset_of_matchUser {rest url user : String} (h : matchUser rest url = some user) :
    user.toList ⊆ url.toList := by
  unfold matchUser at h
  simp only at h
  split at h
  · split at h
    · rw [← Option.some.inj h, String.toList_ofList]
      exact fun c hc => List.mem_of_mem_drop ((List.takeWhile_prefix _).subset hc)
    · cases h
  · cases h

/-- A URL with nothing to decode is answered. -/
theorem listener_survives_of_forall_ne (process : Process) (method : String) {url : String}
    (h : ∀ c ∈ url.toList, c ≠ '%') {reply : Replies} (hmetrics : MetricsResolve reply) :
    Answers (listener process method url) reply := by
  cases huser : requestedUser method url with
  | none => exact answers_listener_of_none huser hmetrics
  | some user =>
    refine (listener_of_requestedUser huser reply).2 ?_
    have hsubset : user.toList ⊆ url.toList := by
      unfold requestedUser at huser
      split at huser
      · rcases Option.or_eq_some_iff.mp huser with hunread | ⟨-, hhistory⟩
        · exact subset_of_matchUser hunread
        · exact subset_of_matchUser hhistory
      · cases huser
    rw [Uri.decodeURIComponent_of_forall_ne fun c hc => h c (hsubset hc)]
    exact Option.some_ne_none _

/-- Redis and the registry reply without errors; there is nothing in Redis. -/
def emptyReplies : Replies
  | .redis (.lpush ..) | .redis (.ltrim ..) => .ok ()
  | .redis (.lrange _) => .ok []
  | .metrics => .ok ""
  | .respond _ => ()

/-- The listener sends exactly one response and resolves, whatever Redis replies, unless the
request asks for a user by a text that `decodeURIComponent` throws at. -/
theorem listener_survives_iff (process : Process) (method url : String) :
    (∀ reply, MetricsResolve reply → Answers (listener process method url) reply) ↔
      ∀ user, requestedUser method url = some user → Uri.decodeURIComponent user ≠ none := by
  constructor
  · intro h user huser hnone
    obtain ⟨hresolves, -⟩ := h emptyReplies ⟨"", rfl⟩
    rw [(listener_of_requestedUser huser emptyReplies).1 hnone] at hresolves
    cases hresolves
  · intro h reply hmetrics
    cases huser : requestedUser method url with
    | none => exact answers_listener_of_none huser hmetrics
    | some user => exact (listener_of_requestedUser huser reply).2 (h user huser)

/-- `GET /api/notifications/%` -/
theorem percent_rejects :
    MetricsResolve emptyReplies ∧
      ¬ Answers (listener ⟨Number.finite, "text/plain", fun _ => "", true⟩ "GET"
        "/api/notifications/%") emptyReplies := by
  refine ⟨⟨"", rfl⟩, fun h => ?_⟩
  obtain ⟨hresolves, -⟩ := h
  cases hresolves

end DevopsEcommerce.NotificationWorker.Untyped
