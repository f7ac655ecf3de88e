import Mathlib.Algebra.GroupWithZero.Nat
import Mathlib.Logic.Function.Basic
import DevopsEcommerce.Interleaving.Program

/-!
# Queues, channels and acknowledgements

A message broker with queues named by `κ` and messages of `μ`. A consumer gets messages over
a channel: each delivery has a tag, numbered from 1 on every channel, and stays with the
channel until it is settled. `ack` and `nack` act on the tag in the channel they are sent on;
a tag that the channel does not know, as well as the end of the connection, closes it and
puts all it holds back into the queues.

`Broker.copies` counts the copies of a message that came from a queue, wherever they are:
only `enqueue` changes it.
-/

namespace Messaging

/-- A message handed to a consumer and not settled yet. -/
structure Delivery (κ μ : Type) where
  tag : ℕ
  queue : κ
  message : μ
deriving DecidableEq

structure Channel (κ μ : Type) where
  isOpen : Bool
  lastTag : ℕ
  /-- Oldest first. -/
  unacked : List (Delivery κ μ)

/-- The waiting messages of each queue, the channels in the order they were opened, and what
acknowledgements have removed from the queues, latest first. -/
structure Broker (κ μ : Type) where
  ready : κ → List μ
  channels : List (Channel κ μ)
  removed : List (κ × μ)

section
variable {κ μ : Type} [DecidableEq κ]

namespace Broker

def empty : Broker κ μ where
  ready _ := []
  channels := []
  removed := []

def enqueue (b : Broker κ μ) (q : κ) (m : μ) : Broker κ μ :=
  { b with ready := Function.update b.ready q (b.ready q ++ [m]) }

/-- One copy for each of the queues. -/
def publish (b : Broker κ μ) (queues : List κ) (m : μ) : Broker κ μ :=
  queues.foldl (fun b q => b.enqueue q m) b

/-- Deliveries go back to the front of their queues. -/
def requeue (b : Broker κ μ) (ds : List (Delivery κ μ)) : Broker κ μ :=
  ds.foldr (fun d b => { b with
    ready := Function.update b.ready d.queue (d.message :: b.ready d.queue) }) b

def openChannel (b : Broker κ μ) : Broker κ μ :=
  { b with channels := b.channels ++ [{ isOpen := true, lastTag := 0, unacked := [] }] }

def setChannel (b : Broker κ μ) (c : ℕ) (ch : Channel κ μ) : Broker κ μ :=
  { b with channels := b.channels.set c ch }

/-- The next message of the queue goes to channel `c`. Which of the waiting messages is next
is left open: it depends on where redelivered ones were put back. -/
def deliver (b : Broker κ μ) (c : ℕ) (q : κ) (j : ℕ) : Option (Broker κ μ × Delivery κ μ) :=
  match b.channels[c]?, (b.ready q)[j]? with
  | some ch, some m =>
    if ch.isOpen then
      let d : Delivery κ μ := { tag := ch.lastTag + 1, queue := q, message := m }
      let rest := { b with ready := Function.update b.ready q ((b.ready q).eraseIdx j) }
      some (rest.setChannel c
        { ch with lastTag := ch.lastTag + 1, unacked := ch.unacked ++ [d] }, d)
    else none
  | _, _ => none

/-- The delivery that an open channel holds under a tag. -/
def outstanding (b : Broker κ μ) (c tag : ℕ) : Option (Delivery κ μ) :=
  match b.channels[c]? with
  | some ch => if ch.isOpen then ch.unacked.find? fun d => d.tag = tag else none
  | none => none

/-- The channel lets go of the tag. -/
def release (b : Broker κ μ) (c tag : ℕ) : Broker κ μ :=
  match b.channels[c]? with
  | some ch => b.setChannel c { ch with unacked := ch.unacked.eraseP fun d => d.tag = tag }
  | none => b

def closeChannel (b : Broker κ μ) (c : ℕ) : Broker κ μ :=
  match b.channels[c]? with
  | some ch => (b.requeue ch.unacked).setChannel c { ch with isOpen := false, unacked := [] }
  | none => b

def closeAll (b : Broker κ μ) : Broker κ μ :=
  (List.range b.channels.length).foldl closeChannel b

def ack (b : Broker κ μ) (c tag : ℕ) : Broker κ μ :=
  match b.outstanding c tag with
  | some d => { b.release c tag with removed := (d.queue, d.message) :: b.removed }
  | none => b.closeChannel c

/-- A negative acknowledgement with `requeue`. -/
def nack (b : Broker κ μ) (c tag : ℕ) : Broker κ μ :=
  match b.outstanding c tag with
  | some d => (b.release c tag).requeue [d]
  | none => b.closeChannel c

end Broker

/-! ## What the operations leave alone -/

namespace Broker

@[simp] lemma requeue_channels (b : Broker κ μ) (ds : List (Delivery κ μ)) :
    (b.requeue ds).channels = b.channels := by
  induction ds with
  | nil => rfl
  | cons d ds ih => exact ih

@[simp] lemma requeue_removed (b : Broker κ μ) (ds : List (Delivery κ μ)) :
    (b.requeue ds).removed = b.removed := by
  induction ds with
  | nil => rfl
  | cons d ds ih => exact ih

@[simp] lemma publish_channels (b : Broker κ μ) (queues : List κ) (m : μ) :
    (b.publish queues m).channels = b.channels := by
  unfold publish
  induction queues generalizing b with
  | nil => rfl
  | cons q queues ih => exact ih (b.enqueue q m)

@[simp] lemma publish_removed (b : Broker κ μ) (queues : List κ) (m : μ) :
    (b.publish queues m).removed = b.removed := by
  unfold publish
  induction queues generalizing b with
  | nil => rfl
  | cons q queues ih => exact ih (b.enqueue q m)

omit [DecidableEq κ] in
@[simp] lemma release_removed (b : Broker κ μ) (c tag : ℕ) :
    (b.release c tag).removed = b.removed := by
  unfold release
  split
  · rfl
  · rfl

@[simp] lemma closeChannel_removed (b : Broker κ μ) (c : ℕ) :
    (b.closeChannel c).removed = b.removed := by
  unfold closeChannel
  split
  · exact requeue_removed b _
  · rfl

@[simp] lemma closeAll_removed (b : Broker κ μ) : b.closeAll.removed = b.removed := by
  unfold closeAll
  induction List.range b.channels.length generalizing b with
  | nil => rfl
  | cons c cs ih => rw [List.foldl_cons, ih, closeChannel_removed]

lemma nack_removed (b : Broker κ μ) (c tag : ℕ) : (b.nack c tag).removed = b.removed := by
  unfold nack
  split
  · rw [requeue_removed, release_removed]
  · exact closeChannel_removed b c

/-- An acknowledgement removes the message that the channel holds under the tag, if there is
one. -/
lemma ack_removed (b : Broker κ μ) (c tag : ℕ) :
    (b.ack c tag).removed =
      ((b.outstanding c tag).map fun d => (d.queue, d.message)).toList ++ b.removed := by
  unfold ack
  split <;> rename_i h
  · simp [h]
  · simp [h]

/-! ## Counting copies -/

/-- The copies that a channel holds. -/
def holds (q : κ) (p : μ → Bool) (ch : Channel κ μ) : ℕ :=
  ch.unacked.countP fun d => d.queue = q && p d.message

/-- The copies from queue `q` of the messages with `p`: waiting, delivered or acknowledged. -/
def copies (b : Broker κ μ) (q : κ) (p : μ → Bool) : ℕ :=
  (b.ready q).countP p + (b.channels.map (holds q p)).sum +
    b.removed.countP fun r => r.1 = q && p r.2

lemma countP_update (ready : κ → List μ) (q q' : κ) (ms : List μ) (p : μ → Bool) :
    (Function.update ready q' ms q).countP p =
      if q' = q then ms.countP p else (ready q).countP p := by
  by_cases h : q' = q
  · subst h
    rw [Function.update_self, if_pos rfl]
  · rw [Function.update_of_ne (Ne.symm h), if_neg h]

lemma copies_enqueue (b : Broker κ μ) (q q' : κ) (m : μ) (p : μ → Bool) :
    (b.enqueue q' m).copies q p = b.copies q p + if q' = q ∧ p m then 1 else 0 := by
  unfold copies enqueue
  simp only [countP_update]
  by_cases h : q' = q
  · subst h
    simp only [if_true, true_and, List.countP_append, List.countP_singleton]
    omega
  · simp [h]

/-- A message published to different queues has one copy more in each of them. -/
theorem copies_publish {queues : List κ} (hnodup : queues.Nodup) (b : Broker κ μ) (q : κ) (m : μ)
    (p : μ → Bool) :
    (b.publish queues m).copies q p = b.copies q p + if q ∈ queues ∧ p m then 1 else 0 := by
  unfold publish
  induction queues generalizing b with
  | nil => simp
  | cons q' queues ih =>
    obtain ⟨hnotin, hrest⟩ := List.nodup_cons.mp hnodup
    rw [List.foldl_cons, ih hrest, copies_enqueue]
    -- the queue that got its copy is not among the rest
    by_cases h : q' = q
    · subst h
      simp [hnotin]
    · simp [h, Ne.symm h]

lemma countP_ready_requeue (b : Broker κ μ) (ds : List (Delivery κ μ)) (q : κ) (p : μ → Bool) :
    ((b.requeue ds).ready q).countP p =
      (b.ready q).countP p + ds.countP fun d => d.queue = q && p d.message := by
  induction ds with
  | nil => rfl
  | cons d ds ih =>
    show (Function.update (b.requeue ds).ready d.queue
      (d.message :: (b.requeue ds).ready d.queue) q).countP p = _
    rw [countP_update, List.countP_cons, List.countP_cons]
    by_cases h : d.queue = q
    · simp only [h, if_true, decide_true, Bool.true_and, ih]
      omega
    · simp only [h, if_false, decide_false, Bool.false_and, Bool.false_eq_true, ih]
      omega

theorem copies_openChannel (b : Broker κ μ) (q : κ) (p : μ → Bool) :
    b.openChannel.copies q p = b.copies q p := by
  unfold copies openChannel
  simp [holds]

/-- Everything a delivery can be. -/
lemma deliver_eq_some {b b' : Broker κ μ} {c j : ℕ} {q : κ} {d : Delivery κ μ}
    (h : b.deliver c q j = some (b', d)) :
    ∃ ch, b.channels[c]? = some ch ∧ ch.isOpen = true ∧ (b.ready q)[j]? = some d.message ∧
      d.queue = q ∧ d.tag = ch.lastTag + 1 ∧ b'.removed = b.removed ∧
      b'.ready = Function.update b.ready q ((b.ready q).eraseIdx j) ∧
      b'.channels = b.channels.set c
        { ch with lastTag := ch.lastTag + 1, unacked := ch.unacked ++ [d] } := by
  unfold deliver at h
  split at h
  · rename_i ch m hch hm
    split at h <;> rename_i hopen
    · obtain ⟨rfl, rfl⟩ := Prod.mk.inj (Option.some.inj h)
      exact ⟨ch, hch, hopen, hm, rfl, rfl, rfl, rfl, rfl⟩
    · cases h
  · cases h

/-- A delivery only moves the message. -/
theorem copies_deliver {b b' : Broker κ μ} {c j : ℕ} {q' : κ} {d : Delivery κ μ}
    (h : b.deliver c q' j = some (b', d)) (q : κ) (p : μ → Bool) :
    b'.copies q p = b.copies q p := by
  obtain ⟨ch, hch, -, hm, hqueue, -, hremoved, hready, hchannels⟩ := deliver_eq_some h
  have hsum := Interleaving.sum_map_set hch (holds q p)
    { ch with lastTag := ch.lastTag + 1, unacked := ch.unacked ++ [d] }
  have hheld : holds q p { ch with lastTag := ch.lastTag + 1, unacked := ch.unacked ++ [d] } =
      holds q p ch + if q' = q ∧ p d.message then 1 else 0 := by
    unfold holds
    simp [List.countP_append, List.countP_singleton, hqueue]
  have herase : (b.ready q').countP p = ((b.ready q').eraseIdx j).countP p +
      if p d.message then 1 else 0 := by
    obtain ⟨hj, hget⟩ := List.getElem?_eq_some_iff.mp hm
    rw [← hget, (List.getElem_cons_eraseIdx_perm hj).symm.countP_eq p, List.countP_cons]
  unfold copies
  rw [hremoved, hready, hchannels, countP_update]
  rw [hheld] at hsum
  -- what the queue has lost, the channel holds
  by_cases hq : q' = q
  · subst hq
    simp only [if_true, true_and] at hsum ⊢
    omega
  · simp only [hq, if_false, false_and] at hsum ⊢
    omega

/-- What a channel holds is what it holds without the tag, and the delivery under the tag. -/
lemma holds_eraseP {ch : Channel κ μ} {tag : ℕ} {d : Delivery κ μ}
    (h : ch.unacked.find? (fun d => d.tag = tag) = some d) (q : κ) (p : μ → Bool) :
    holds q p ch = holds q p { ch with unacked := ch.unacked.eraseP fun d => d.tag = tag } +
      if d.queue = q ∧ p d.message then 1 else 0 := by
  unfold holds
  show ch.unacked.countP _ = (ch.unacked.eraseP _).countP _ + _
  generalize ch.unacked = ds at h
  induction ds with
  | nil => cases h
  | cons e ds ih =>
    by_cases he : e.tag = tag
    · -- both `find?` and `eraseP` stop at the first delivery under the tag
      rw [List.find?_cons_of_pos (by simpa using he), Option.some.injEq] at h
      subst h
      rw [List.eraseP_cons_of_pos (by simpa using he), List.countP_cons]
      simp
    · rw [List.find?_cons_of_neg (by simpa using he)] at h
      rw [List.eraseP_cons_of_neg (by simpa using he), List.countP_cons, List.countP_cons, ih h]
      omega

omit [DecidableEq κ] in
lemma outstanding_eq_some {b : Broker κ μ} {c tag : ℕ} {d : Delivery κ μ}
    (h : b.outstanding c tag = some d) :
    ∃ ch, b.channels[c]? = some ch ∧ ch.isOpen = true ∧
      ch.unacked.find? (fun d => d.tag = tag) = some d := by
  unfold outstanding at h
  split at h
  · rename_i ch hch
    split at h <;> rename_i hopen
    · exact ⟨ch, hch, hopen, h⟩
    · cases h
  · cases h

/-- The delivery under a tag leaves the count when the channel lets go of it. -/
lemma copies_release {b : Broker κ μ} {c tag : ℕ} {d : Delivery κ μ}
    (h : b.outstanding c tag = some d) (q : κ) (p : μ → Bool) :
    b.copies q p = (b.release c tag).copies q p +
      if d.queue = q ∧ p d.message then 1 else 0 := by
  obtain ⟨ch, hch, -, hfind⟩ := outstanding_eq_some h
  have hsum := Interleaving.sum_map_set hch (holds q p)
    { ch with unacked := ch.unacked.eraseP fun d => d.tag = tag }
  have hheld := holds_eraseP hfind q p
  unfold copies release
  simp only [hch, setChannel]
  omega

theorem copies_closeChannel (b : Broker κ μ) (c : ℕ) (q : κ) (p : μ → Bool) :
    (b.closeChannel c).copies q p = b.copies q p := by
  unfold closeChannel
  split
  · rename_i ch hch
    have hsum := Interleaving.sum_map_set hch (holds q p)
      { ch with isOpen := false, unacked := [] }
    -- all that the channel held is back in the queues
    have hnone : holds q p { ch with isOpen := false, unacked := [] } = 0 := rfl
    unfold copies setChannel
    simp only [requeue_removed, requeue_channels, countP_ready_requeue]
    rw [hnone] at hsum
    unfold holds at hsum ⊢
    omega
  · rfl

theorem copies_closeAll (b : Broker κ μ) (q : κ) (p : μ → Bool) :
    b.closeAll.copies q p = b.copies q p := by
  unfold closeAll
  induction List.range b.channels.length generalizing b with
  | nil => rfl
  | cons c cs ih => rw [List.foldl_cons, ih, copies_closeChannel]

/-- An acknowledgement only moves the message. -/
theorem copies_ack (b : Broker κ μ) (c tag : ℕ) (q : κ) (p : μ → Bool) :
    (b.ack c tag).copies q p = b.copies q p := by
  unfold ack
  split
  · rename_i d hd
    -- the delivery leaves the channel for the list of removed messages
    rw [copies_release hd q p]
    unfold copies
    simp only [List.countP_cons, release_removed]
    simp only [Bool.and_eq_true, decide_eq_true_eq]
    omega
  · exact copies_closeChannel b c q p

theorem copies_nack (b : Broker κ μ) (c tag : ℕ) (q : κ) (p : μ → Bool) :
    (b.nack c tag).copies q p = b.copies q p := by
  unfold nack
  split
  · rename_i d hd
    -- the delivery leaves the channel for its queue
    rw [copies_release hd q p]
    unfold copies
    simp only [countP_ready_requeue, requeue_channels, requeue_removed, List.countP_singleton]
    simp only [Bool.and_eq_true, decide_eq_true_eq]
    omega
  · exact copies_closeChannel b c q p

/-! ## Channels only let go -/

/-- The channels are the same, with the same tags given out, and hold no more than before. -/
def HoldsLess (b b' : Broker κ μ) : Prop :=
  b'.channels.length = b.channels.length ∧
    ∀ (c : ℕ) (ch' : Channel κ μ), b'.channels[c]? = some ch' → ∃ ch, b.channels[c]? = some ch ∧
      ch'.lastTag = ch.lastTag ∧ ∀ d ∈ ch'.unacked, d ∈ ch.unacked

omit [DecidableEq κ] in
lemma HoldsLess.of_channels_eq {b b' : Broker κ μ} (h : b'.channels = b.channels) :
    b.HoldsLess b' := by
  refine ⟨by rw [h], fun c ch' hch' => ⟨ch', h ▸ hch', rfl, fun d hd => hd⟩⟩

omit [DecidableEq κ] in
lemma HoldsLess.of_set {b b' : Broker κ μ} {c : ℕ} {ch : Channel κ μ}
    (hch : b.channels[c]? = some ch) (ch₁ : Channel κ μ) (h : b'.channels = b.channels.set c ch₁)
    (htag : ch₁.lastTag = ch.lastTag) (hunacked : ∀ d ∈ ch₁.unacked, d ∈ ch.unacked) :
    b.HoldsLess b' := by
  refine ⟨by rw [h, List.length_set], fun c' ch' hch' => ?_⟩
  rw [h] at hch'
  rcases Interleaving.getElem?_set_eq_some hch' with ⟨rfl, rfl⟩ | ⟨-, hold⟩
  · exact ⟨ch, hch, htag, hunacked⟩
  · exact ⟨ch', hold, rfl, fun d hd => hd⟩

omit [DecidableEq κ] in
lemma HoldsLess.trans {b b' b'' : Broker κ μ} (h : b.HoldsLess b') (h' : b'.HoldsLess b'') :
    b.HoldsLess b'' := by
  refine ⟨h'.1.trans h.1, fun c ch'' hch'' => ?_⟩
  obtain ⟨ch', hch', htag', hunacked'⟩ := h'.2 c ch'' hch''
  obtain ⟨ch, hch, htag, hunacked⟩ := h.2 c ch' hch'
  exact ⟨ch, hch, htag'.trans htag, fun d hd => hunacked d (hunacked' d hd)⟩

omit [DecidableEq κ] in
lemma HoldsLess.congr {b b' b'' : Broker κ μ} (h : b.HoldsLess b')
    (hchannels : b''.channels = b'.channels) : b.HoldsLess b'' := by
  unfold HoldsLess at h ⊢
  rwa [hchannels]

omit [DecidableEq κ] in
lemma holdsLess_release (b : Broker κ μ) (c tag : ℕ) : b.HoldsLess (b.release c tag) := by
  unfold release
  split
  · rename_i ch hch
    exact .of_set hch { ch with unacked := ch.unacked.eraseP fun d => d.tag = tag } rfl rfl
      fun d hd => List.mem_of_mem_eraseP hd
  · exact .of_channels_eq rfl

lemma holdsLess_closeChannel (b : Broker κ μ) (c : ℕ) : b.HoldsLess (b.closeChannel c) := by
  unfold closeChannel
  split
  · rename_i ch hch
    refine .of_set hch { ch with isOpen := false, unacked := [] } ?_ rfl ?_
    · rw [setChannel, requeue_channels]
    · exact fun d hd => absurd hd List.not_mem_nil
  · exact .of_channels_eq rfl

lemma holdsLess_closeAll (b : Broker κ μ) : b.HoldsLess b.closeAll := by
  unfold closeAll
  induction List.range b.channels.length generalizing b with
  | nil => exact .of_channels_eq rfl
  | cons c cs ih => exact (holdsLess_closeChannel b c).trans (ih (b.closeChannel c))

lemma holdsLess_ack (b : Broker κ μ) (c tag : ℕ) : b.HoldsLess (b.ack c tag) := by
  unfold ack
  split
  · exact (holdsLess_release b c tag).congr rfl
  · exact holdsLess_closeChannel b c

lemma holdsLess_nack (b : Broker κ μ) (c tag : ℕ) : b.HoldsLess (b.nack c tag) := by
  unfold nack
  split
  · exact (holdsLess_release b c tag).congr (requeue_channels _ _)
  · exact holdsLess_closeChannel b c

end Broker

end

end Messaging
