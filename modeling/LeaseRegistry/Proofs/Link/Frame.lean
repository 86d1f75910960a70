import LeaseRegistry.Link.Frame

/-!
# The readers of a stream

`nextFrame` and `readAll` go over a stream separately, and both look at one item at a time:
`WireItem.taken?` says what an item is to either of them. What they come to is said without them by
`payloads` and `ending`, the data up to the item that ends the stream and the error that this item
is reported as. `readers_agree` says that both readers come to just that.
-/

namespace LeaseRegistry

namespace WireItem

/-! ## One item -/

/-- What an item is to a reader that waits for a data frame; nothing if it is passed over. -/
def taken? : WireItem → Option (Except LinkError (List UInt8))
  | .ok m =>
    match Frame.ofMessage m with
    | .data bytes => some (.ok bytes)
    | .skip => none
    | .close => some (.error .closed)
  | .error .connectionClosed | .error .alreadyClosed => some (.error .closed)
  | .error (.failure reason) => some (.error (.connectionFailed reason))

/-- The bytes of a binary or text message that is not too large. -/
def payload? : WireItem → Option (List UInt8)
  | .ok (.binary bytes) | .ok (.text bytes) =>
    if bytes.length ≤ Handshake.maxMessageSize then some bytes else none
  | .ok (.ping _) | .ok (.pong _) | .ok .close | .error _ => none

/-- The error that a close message or a failure of the stream is reported as. -/
def fault? : WireItem → Option LinkError
  | .ok .close | .error .connectionClosed | .error .alreadyClosed => some .closed
  | .error (.failure reason) => some (.connectionFailed reason)
  | .ok (.binary _) | .ok (.text _) | .ok (.ping _) | .ok (.pong _) => none

theorem taken?_of_fault {i : WireItem} {e : LinkError} (h : i.fault? = some e) :
    i.taken? = some (.error e) := by
  match i, h with
  | .ok .close, rfl => rfl
  | .error .connectionClosed, rfl => rfl
  | .error .alreadyClosed, rfl => rfl
  | .error (.failure _), rfl => rfl

theorem taken?_of_no_fault {i : WireItem} (h : i.fault? = none) :
    i.taken? = i.payload?.map .ok := by
  have hbounded (bytes : List UInt8) :
      (match Frame.bounded bytes with
        | .data bytes => some (.ok bytes)
        | .skip => none
        | .close => some (.error .closed)) =
      (if bytes.length ≤ Handshake.maxMessageSize then some bytes else none).map
        (Except.ok (ε := LinkError)) := by
    rw [Frame.bounded]
    by_cases hsize : bytes.length ≤ Handshake.maxMessageSize
    · simp only [if_pos hsize, Option.map_some]
    · simp only [if_neg hsize, Option.map_none]
  match i, h with
  | .ok (.binary bytes), _ => exact hbounded bytes
  | .ok (.text bytes), _ => exact hbounded bytes
  | .ok (.ping _), _ => rfl
  | .ok (.pong _), _ => rfl

end WireItem

/-! ## The two readers, item by item -/

theorem nextFrame_cons (i : WireItem) (items : List WireItem) :
    nextFrame (i :: items) =
      match i.taken? with
      | none => nextFrame items
      | some r => (r, items) := by
  cases i with
  | error e => cases e <;> rfl
  | ok m =>
    rw [nextFrame, WireItem.taken?]
    cases Frame.ofMessage m <;> rfl

/-- An item that is passed over changes nothing for any number of calls. -/
theorem frames_cons_of_passed {i : WireItem} (h : i.taken? = none) (n : Nat)
    (items : List WireItem) : frames n (i :: items) = frames n items := by
  cases n with
  | zero => rfl
  | succ n => simp only [frames, nextFrame_cons, h]

theorem frames_cons_of_taken {i : WireItem} {r : Except LinkError (List UInt8)}
    (h : i.taken? = some r) (n : Nat) (items : List WireItem) :
    frames (n + 1) (i :: items) = r :: frames n items := by
  simp only [frames, nextFrame_cons, h]

theorem readAll_cons_of_passed {i : WireItem} (h : i.taken? = none) (life : Option Nat)
    (items : List WireItem) : readAll life (i :: items) = readAll life items := by
  cases i with
  | error e => cases e <;> cases h
  | ok m =>
    simp only [readAll]
    simp only [WireItem.taken?] at h
    cases hm : Frame.ofMessage m with
    | skip => rfl
    | data bytes | close =>
      rw [hm] at h
      cases h

theorem readAll_cons_of_fault {i : WireItem} {e : LinkError} (h : i.taken? = some (.error e))
    (life : Option Nat) (items : List WireItem) : readAll life (i :: items) = [] := by
  cases i with
  | error e => rfl
  | ok m =>
    simp only [readAll]
    simp only [WireItem.taken?] at h
    cases hm : Frame.ofMessage m with
    | close => rfl
    | data bytes | skip =>
      rw [hm] at h
      cases h

/-- A frame is handed on if the receiver is still there. -/
theorem readAll_cons_of_frame {i : WireItem} {bytes : List UInt8}
    (h : i.taken? = some (.ok bytes)) (items : List WireItem) :
    readAll none (i :: items) = bytes :: readAll none items ∧ readAll (some 0) (i :: items) = [] ∧
      ∀ n, readAll (some (n + 1)) (i :: items) = bytes :: readAll (some n) items := by
  cases i with
  | error e => cases e <;> cases h
  | ok m =>
    simp only [readAll]
    simp only [WireItem.taken?] at h
    cases hm : Frame.ofMessage m with
    | data bytes' =>
      rw [hm] at h
      cases h
      exact ⟨rfl, rfl, fun _ => rfl⟩
    | skip | close =>
      rw [hm] at h
      cases h

/-! ## What both come to -/

/-- The data up to the first item that ends the stream: all of it but what is too large. -/
def payloads (items : List WireItem) : List (List UInt8) :=
  (items.takeWhile (·.fault?.isNone)).filterMap WireItem.payload?

/-- The error that the end of a stream is reported as. -/
def ending (items : List WireItem) : LinkError := (items.findSome? WireItem.fault?).getD .closed

/-- What a receiver gets that is gone after `life` frames, or never. -/
def receivedOf (life : Option Nat) (frames : List (List UInt8)) : List (List UInt8) :=
  match life with
  | none => frames
  | some n => frames.take n

theorem payloads_cons_of_fault {i : WireItem} {e : LinkError} (h : i.fault? = some e)
    (items : List WireItem) : payloads (i :: items) = [] ∧ ending (i :: items) = e := by
  simp [payloads, ending, h]

theorem payloads_cons_of_no_fault {i : WireItem} (h : i.fault? = none) (items : List WireItem) :
    payloads (i :: items) = i.payload?.toList ++ payloads items ∧
      ending (i :: items) = ending items := by
  cases hp : i.payload? <;> simp [payloads, ending, h, hp]

/-- The first reader, called again and again, gives each payload in its turn and then the error that
the stream ends with. -/
theorem frames_eq (n : Nat) (items : List WireItem) :
    (frames n items).take ((payloads items).length + 1) =
      ((payloads items).map Except.ok ++ [Except.error (ending items)]).take n := by
  induction items generalizing n with
  | nil =>
    cases n with
    | zero => rfl
    | succ n => simp [frames, nextFrame, payloads, ending]
  | cons i items ih =>
    cases hfault : i.fault? with
    | some e =>
      obtain ⟨hpayloads, hending⟩ := payloads_cons_of_fault hfault items
      rw [hpayloads, hending]
      cases n with
      | zero => rfl
      | succ n =>
        rw [frames_cons_of_taken (WireItem.taken?_of_fault hfault)]
        simp
    | none =>
      have htaken := WireItem.taken?_of_no_fault hfault
      obtain ⟨hpayloads, hending⟩ := payloads_cons_of_no_fault hfault items
      rw [hpayloads, hending]
      cases hp : i.payload? with
      | none =>
        rw [hp] at htaken
        rw [frames_cons_of_passed htaken]
        exact ih n
      | some bytes =>
        rw [hp] at htaken
        cases n with
        | zero => rfl
        | succ n =>
          rw [frames_cons_of_taken htaken]
          exact congrArg (.ok bytes :: ·) (ih n)

/-- The second reader hands on each payload in its turn, as long as somebody takes them. -/
theorem readAll_eq (life : Option Nat) (items : List WireItem) :
    readAll life items = receivedOf life (payloads items) := by
  induction items generalizing life with
  | nil => cases life <;> simp [readAll, receivedOf, payloads]
  | cons i items ih =>
    cases hfault : i.fault? with
    | some e =>
      rw [readAll_cons_of_fault (WireItem.taken?_of_fault hfault),
        (payloads_cons_of_fault hfault items).1]
      cases life <;> simp [receivedOf]
    | none =>
      have htaken := WireItem.taken?_of_no_fault hfault
      rw [(payloads_cons_of_no_fault hfault items).1]
      cases hp : i.payload? with
      | none =>
        rw [hp] at htaken
        rw [readAll_cons_of_passed htaken]
        exact ih life
      | some bytes =>
        rw [hp] at htaken
        obtain ⟨hnone, hzero, hsucc⟩ := readAll_cons_of_frame htaken items
        rcases life with - | - | n
        · rw [hnone]
          exact congrArg (bytes :: ·) (ih none)
        · exact hzero
        · rw [hsucc]
          exact congrArg (bytes :: ·) (ih (some n))

/-- On every stream, the frames that are handed on to a receiver are, in their order, the results of
waiting for one frame after the other up to the first error, as many of them as it takes. Both are
the bytes of the binary and text messages that are not too large and that come before the first
close message, failure or end. -/
theorem readers_agree (items : List WireItem) :
    (∀ n, (frames n items).take ((payloads items).length + 1) =
      ((payloads items).map Except.ok ++ [Except.error (ending items)]).take n) ∧
    readAll none items = payloads items ∧
    ∀ n, readAll (some n) items = (payloads items).take n :=
  ⟨fun n => frames_eq n items, readAll_eq none items, fun n => readAll_eq (some n) items⟩

end LeaseRegistry
