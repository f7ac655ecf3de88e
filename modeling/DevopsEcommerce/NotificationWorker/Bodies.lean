import DevopsEcommerce.Js.Utf8
import DevopsEcommerce.NotificationWorker.Consumer
import DevopsEcommerce.NotificationWorker.Untyped

/-!
# Bodies of messages

What becomes of a message, whatever its bytes are, as long as Redis and the connection are
healthy. The callback acknowledges it, or rejects it and so puts it back into its queue, or the
process ends and the broker puts it back. Whether the message ever leaves the queue depends on
its body alone (`leaves_queue_iff`).
-/

open Interleaving Js

namespace DevopsEcommerce.NotificationWorker.Untyped

/-- Where the message is. -/
inductive Status where
  | queued
  | handled (program : Program Command Reply Ending)
  | removed

structure Loop where
  store : Store
  status : Status

inductive LoopLabel where
  | deliver (stamps : ℕ → Stamp)
  | answer
  | settle

section
variable (double : Json.NumberLiteral → Number)

/-- The `try` of the callback: `JSON.parse(msg.content.toString())` and `processMessage`. -/
def callback (queue : String) (content : List UInt8) (stamps : ℕ → Stamp) :
    Program Command Reply Ending :=
  match parse (String.ofList (Utf8.decode content)) with
  | none => .done .rejected
  | some order => processMessage double queue order stamps

/-- The broker delivers the message, Redis answers a command of the callback, or the callback
has ended. -/
def Loop.step (queue : String) (content : List UInt8) (s : Loop) : LoopLabel → Option Loop
  | .deliver stamps =>
    match s.status with
    | .queued => some { s with status := .handled (callback double queue content stamps) }
    | _ => none
  | .answer =>
    match s.status with
    | .handled (.call c k) =>
      (exec s.store 0 c (.once .none)).map fun sr => { store := sr.1, status := .handled (k sr.2) }
    | _ => none
  | .settle =>
    match s.status with
    | .handled (.done ending) =>
      some { s with
        status := match ending with
          | .resolved => .removed
          -- `channel.nack(msg, false, true)`
          | .rejected => .queued
          -- the connection ends with the process
          | .crashed => .queued }
    | _ => none

end

/-- The fields that the worker writes somewhere can be converted to strings. -/
def isReadable (queue : String) (order : Json) : Bool :=
  match order with
  | .null => false
  | order =>
    isPrintable (orderIdOf order) && isPrintable (emailOf order) &&
      isPrintable (userIdOf order "unknown") &&
      (queue = "order.cancelled" || isPrintable (phoneOf order))

/-- The body is the text of such a value. -/
def isReadableBody (queue : String) (content : List UInt8) : Bool :=
  match parse (String.ofList (Utf8.decode content)) with
  | none => false
  | some order => isReadable queue order

section
variable {double : Json.NumberLiteral → Number}

/-- What is converted at last is as printable with another last alternative. -/
lemma isPrintable_userIdOf (order : Json) (a b : String) :
    isPrintable (userIdOf order a) = isPrintable (userIdOf order b) := by
  have hlast : isPrintable (.string a) = isPrintable (.string b) := by rw [isPrintable, isPrintable]
  exact isPrintable_orElse_congr _ (isPrintable_orElse_congr _ hlast)

/-! ## What the callback does -/

lemma isNone_bind_map (a b : Option String) (f : String → String → String) :
    (a.bind fun x => b.map fun y => f x y).isNone = !(a.isSome && b.isSome) := by
  cases a <;> cases b <;> rfl

/-- A channel's timer throws, for one of the channels of the queue. -/
lemma any_isNone_simulate {queue : String} (hqueue : queue ∈ queues) (order : Json)
    (notificationType : String) :
    ((getChannelsForQueue queue).any fun ch =>
        (simulate double order notificationType ch).isNone) =
      !(isPrintable (orderIdOf order) && isPrintable (emailOf order) &&
        isPrintable (userIdOf order "unknown") &&
        (queue = "order.cancelled" || isPrintable (phoneOf order))) := by
  have hemail : (simulate double order notificationType "email").isNone =
      !(isPrintable (orderIdOf order) && isPrintable (emailOf order)) := by
    rw [← isSome_toText double, ← isSome_toText double]
    exact isNone_bind_map _ _ _
  have hsms : (simulate double order notificationType "sms").isNone =
      !(isPrintable (orderIdOf order) && isPrintable (phoneOf order)) := by
    rw [← isSome_toText double, ← isSome_toText double]
    exact isNone_bind_map _ _ _
  have hpush : (simulate double order notificationType "push").isNone =
      !(isPrintable (orderIdOf order) && isPrintable (userIdOf order "unknown")) := by
    rw [← isSome_toText double, ← isSome_toText double]
    exact isNone_bind_map _ _ _
  have hqueues : queue = "order.created" ∨ queue = "order.shipped" ∨ queue = "order.cancelled" := by
    simpa [queues] using hqueue
  rcases hqueues with rfl | rfl | rfl
  · simp only [getChannelsForQueue, List.any_cons, List.any_nil, hemail, hsms, hpush]
    grind
  · simp only [getChannelsForQueue, List.any_cons, List.any_nil, hemail, hsms, hpush]
    grind
  · simp only [getChannelsForQueue, List.any_cons, List.any_nil, hemail, hpush]
    grind

/-- If the fields cannot be written, nothing is stored and the message is not acknowledged. -/
lemma processMessage_of_not_isReadable {queue : String} (hqueue : queue ∈ queues) {order : Json}
    (horder : isReadable queue order = false) (stamps : ℕ → Stamp) :
    processMessage double queue order stamps = .done .rejected ∨
      processMessage double queue order stamps = .done .crashed := by
  by_cases hnull : order = .null
  · subst hnull
    exact .inl (by rw [processMessage])
  · rw [isReadable.eq_2 _ _ hnull] at horder
    rw [processMessage.eq_2 _ _ _ _ hnull]
    cases buildNotificationMessage double queue order with
    | none => exact .inl rfl
    | some message =>
      right
      rw [← Bool.not_eq_true', ← any_isNone_simulate hqueue] at horder
      exact if_pos horder

/-- Otherwise the records are stored. -/
lemma processMessage_of_isReadable {queue : String} (hqueue : queue ∈ queues) {order : Json}
    (horder : isReadable queue order = true) (stamps : ℕ → Stamp) :
    isPrintable (userIdOf order "anonymous") = true ∧
      ∃ records, processMessage double queue order stamps =
        storeEach double (userIdOf order "anonymous") records := by
  by_cases hnull : order = .null
  · subst hnull
    cases horder
  · rw [isReadable.eq_2 _ _ hnull] at horder
    have hsent : ((getChannelsForQueue queue).any fun ch =>
        (simulate double order (queueToType queue) ch).isNone) = false := by
      rw [any_isNone_simulate hqueue, horder, Bool.not_true]
    simp only [Bool.and_eq_true] at horder
    obtain ⟨⟨⟨horderId, -⟩, huserId⟩, -⟩ := horder
    refine ⟨(isPrintable_userIdOf order _ _).trans huserId, ?_⟩
    rw [← isSome_toText double, Option.isSome_iff_exists] at horderId
    obtain ⟨orderId, horderId⟩ := horderId
    rw [processMessage.eq_2 _ _ _ _ hnull, buildNotificationMessage, horderId]
    exact ⟨_, if_neg (Bool.eq_false_iff.mp hsent)⟩

/-! ## What becomes of the message -/

/-- A callback that stores records acknowledges the message in the end. -/
lemma inevitable_storeEach {queue : String} {content : List UInt8} {userId : Json}
    (huserId : isPrintable userId = true) (records : List Json) (store : Store) :
    Inevitable (Loop.step double queue content) (fun s => s.status = .removed)
      ⟨store, .handled (storeEach double userId records)⟩ := by
  induction records generalizing store with
  | nil =>
    refine .later ⟨.settle, _, rfl⟩ fun e s' hs' => .now ?_
    cases e <;> cases hs'
    rfl
  | cons record records ih =>
    rw [← isSome_toText double, Option.isSome_iff_exists] at huserId
    obtain ⟨text, htext⟩ := huserId
    rw [storeEach, storeNotification, htext]
    -- the push, and then the trim
    refine .later ⟨.answer, _, rfl⟩ fun e s' hs' => ?_
    cases e <;> cases hs'
    refine .later ⟨.answer, _, rfl⟩ fun e s' hs' => ?_
    cases e <;> cases hs'
    exact ih _

lemma callback_of_not_isReadableBody {queue : String} (hqueue : queue ∈ queues)
    {content : List UInt8} (hcontent : isReadableBody queue content = false)
    (stamps : ℕ → Stamp) :
    callback double queue content stamps = .done .rejected ∨
      callback double queue content stamps = .done .crashed := by
  unfold isReadableBody at hcontent
  unfold callback
  cases horder : parse (String.ofList (Utf8.decode content)) with
  | none => exact .inl rfl
  | some order =>
    rw [horder] at hcontent
    exact processMessage_of_not_isReadable hqueue hcontent stamps

/-- A message whose body is not readable goes back to its queue whenever it has left it. -/
lemma not_inevitable_of_not_isReadableBody {queue : String} (hqueue : queue ∈ queues)
    {content : List UInt8} (hcontent : isReadableBody queue content = false) (store : Store) :
    ¬ Inevitable (Loop.step double queue content) (fun s => s.status = .removed)
      ⟨store, .queued⟩ := by
  refine not_inevitable (I := fun s => s.status = .queued ∨
    s.status = .handled (.done .rejected) ∨ s.status = .handled (.done .crashed)) ?_ ?_ (.inl rfl)
  · rintro ⟨store, status⟩ (hqueued | hrejected | hcrashed) hremoved
    · cases hqueued.symm.trans hremoved
    · cases hrejected.symm.trans hremoved
    · cases hcrashed.symm.trans hremoved
  · rintro ⟨store, status⟩ (hqueued | hrejected | hcrashed)
    · obtain rfl : status = .queued := hqueued
      have hcallback : callback double queue content (fun _ => ⟨"", ""⟩) = .done .rejected ∨
          callback double queue content (fun _ => ⟨"", ""⟩) = .done .crashed :=
        callback_of_not_isReadableBody hqueue hcontent _
      exact ⟨.deliver fun _ => ⟨"", ""⟩, _, rfl,
        .inr (hcallback.imp (congrArg Status.handled) (congrArg Status.handled))⟩
    · obtain rfl : status = .handled (.done .rejected) := hrejected
      exact ⟨.settle, _, rfl, .inl rfl⟩
    · obtain rfl : status = .handled (.done .crashed) := hcrashed
      exact ⟨.settle, _, rfl, .inl rfl⟩

/-- A message whose body is readable is acknowledged at its first delivery. -/
lemma inevitable_of_isReadableBody {queue : String} (hqueue : queue ∈ queues)
    {content : List UInt8} (hcontent : isReadableBody queue content = true) (store : Store) :
    Inevitable (Loop.step double queue content) (fun s => s.status = .removed)
      ⟨store, .queued⟩ := by
  unfold isReadableBody at hcontent
  cases horder : parse (String.ofList (Utf8.decode content)) with
  | none =>
    rw [horder] at hcontent
    cases hcontent
  | some order =>
    rw [horder] at hcontent
    refine .later ⟨.deliver fun _ => ⟨"", ""⟩, _, rfl⟩ fun e s' hs' => ?_
    cases e <;> cases hs'
    rename_i stamps
    obtain ⟨huserId, records, hprocess⟩ : _ ∧ ∃ records,
        processMessage double queue order stamps =
          storeEach double (userIdOf order "anonymous") records :=
      processMessage_of_isReadable hqueue hcontent stamps
    rw [callback, horder]
    simp only [hprocess]
    exact inevitable_storeEach huserId records store

/-- The message leaves its queue for good if its body is readable, and otherwise it need never
leave: it can be delivered again and again. -/
theorem leaves_queue_iff (double : Json.NumberLiteral → Number) {queue : String}
    (hqueue : queue ∈ queues) (content : List UInt8) (store : Store) :
    Inevitable (Loop.step double queue content) (fun s => s.status = .removed) ⟨store, .queued⟩ ↔
      isReadableBody queue content = true := by
  constructor
  · intro h
    by_contra hcontent
    exact not_inevitable_of_not_isReadableBody hqueue (Bool.eq_false_iff.mpr hcontent) store h
  · exact fun hcontent => inevitable_of_isReadableBody hqueue hcontent store

end

/-- The body `null`. -/
theorem null_stays_queued :
    ¬ Inevitable (Loop.step Number.finite "order.created" [0x6E, 0x75, 0x6C, 0x6C])
      (fun s => s.status = .removed) ⟨⟨fun _ => [], []⟩, .queued⟩ :=
  not_inevitable_of_not_isReadableBody (by simp [queues]) rfl _

theorem leaves_queue_iff_empty :
    Inevitable (Loop.step Number.finite "order.created" [0x7B, 0x7D])
        (fun s => s.status = .removed) ⟨⟨fun _ => [], []⟩, .queued⟩ ↔
      isReadableBody "order.created" [0x7B, 0x7D] = true :=
  leaves_queue_iff Number.finite (by simp [queues]) _ _

/-! ## Events of the order service -/

section
variable {escape : Char → List Char}

lemma isReadableBody_utf8 (hescape : Json.Unescapes escape) (queue : String) (v : Json) :
    isReadableBody queue ((v.print escape).flatMap String.utf8EncodeChar) =
      isReadable queue v := by
  have hparse : parse (String.ofList (v.print escape)) = some v := by
    unfold parse
    rw [String.toList_ofList, Json.parse_print hescape]
  rw [isReadableBody, Utf8.decode_encode, hparse]

lemma isReadable_eventJson (queue : String) (order : OrderEvent) :
    isReadable queue (eventJson order) = true := by
  have hemail : emailOf (eventJson order) = .string "customer@example.com" := rfl
  have hphone : phoneOf (eventJson order) = .string "+1-555-0100" := rfl
  rw [isReadable.eq_2]
  · simp [orderIdOf_eventJson, userIdOf_eventJson, hemail, hphone, isPrintable]
  · exact fun h => by cases h

/-- Events leave their queues, whatever the printer of their JSON escapes. -/
theorem event_leaves_queue (hescape : Json.Unescapes escape) (double : Json.NumberLiteral → Number)
    {queue : String} (hqueue : queue ∈ queues) (order : OrderEvent) (store : Store) :
    Inevitable
      (Loop.step double queue (((eventJson order).print escape).flatMap String.utf8EncodeChar))
      (fun s => s.status = .removed) ⟨store, .queued⟩ := by
  refine inevitable_of_isReadableBody hqueue ?_ store
  rw [isReadableBody_utf8 hescape]
  exact isReadable_eventJson queue order

end

end DevopsEcommerce.NotificationWorker.Untyped
