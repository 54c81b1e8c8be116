import AmqpAsio.Transceiver.WellFormed

/-!
# JSON messages

`ConvertFromJson` puts a JSON value into an envelope, `Transceiver::send` publishes it, and
`ConvertToJson` takes it out of the message again, into a `Document` that may be used for one
message after another. The text is written and read by RapidJSON, which is a parameter here.

A value that holds NaN or an infinite number is not written to its end, and `ConvertFromJson` does
not look at what `Accept` returns, so what was written so far is published as JSON. And
`ConvertToJson` leaves the `Document` alone when a message is not JSON, instead of setting it to
null. A `Document` that is used again therefore says what was sent exactly as long as neither of the
two happens.
-/

set_option autoImplicit false
set_option relaxedAutoImplicit false

namespace AmqpAsio

/-! ### Values -/

/-- A JSON value, with numbers from `ν`. -/
inductive Json (ν : Type)
  | null
  | bool (value : Bool)
  | number (value : ν)
  | string (value : String)
  | array (elements : List (Json ν))
  | object (members : List (String × Json ν))

namespace Json

variable {ν : Type} (finite : ν → Bool)

mutual

/-- No number in the value, at any depth, is NaN or infinite. -/
def isFinite : Json ν → Bool
  | .null | .bool _ | .string _ => true
  | .number n => finite n
  | .array elements => elementsFinite elements
  | .object members => membersFinite members

/-- The same of the elements of an array. -/
def elementsFinite : List (Json ν) → Bool
  | [] => true
  | v :: rest => isFinite v && elementsFinite rest

/-- The same of the members of an object. -/
def membersFinite : List (String × Json ν) → Bool
  | [] => true
  | (_, v) :: rest => isFinite v && membersFinite rest

end

end Json

/-- What is used of RapidJSON: which numbers are finite, `Accept` with a `Writer` into a
`StringBuffer`, and `Parse`. -/
structure RapidJson (ν : Type) where
  finite : ν → Bool
  accept : Json ν → String × Bool
  parse : String → Option (Json ν)

/-- What its documentation says about a value and the text that is written of it: `Accept` succeeds
unless it meets NaN or an infinite number, `Parse` then gives the value back, and `Parse` without
`kParseNanAndInfFlag` gives finite numbers only. -/
structure RapidJson.Documented {ν : Type} (r : RapidJson ν) (v : Json ν) : Prop where
  accept : (r.accept v).2 = v.isFinite r.finite
  parse : (r.accept v).2 = true → r.parse (r.accept v).1 = some v
  finite : ∀ w, r.parse (r.accept v).1 = some w → w.isFinite r.finite = true

/-! ### The converter -/

section Converter

open Transceiver

variable {ν : Type} (r : RapidJson ν)

/-- `ConvertToJson`: what the `Document` holds afterwards. -/
def convertToJson (message : Message) (json : Json ν) : Json ν :=
  if message.contentType = "application/json" then (r.parse message.body).getD .null else json

/-- `ConvertFromJson`. -/
def convertFromJson (json : Json ν) : Message where
  contentType := "application/json"
  contentEncoding := "utf-8"
  body := (r.accept json).1

/-- `Transceiver::send(const rapidjson::Document&, …)`. -/
def Transceiver.sendDocument (t : Transceiver) (message : Json ν) (route : String)
    (mandatory : Bool) : Transceiver × Bool :=
  t.publish (convertFromJson r message) route mandatory

variable {r} {v json : Json ν}

/-- A JSON message is decoded to the value it was made of exactly when that is finite. -/
theorem convertToJson_convertFromJson (hdocumented : r.Documented v) :
    convertToJson r (convertFromJson r v) json = v ↔ v.isFinite r.finite = true := by
  have hdecode : convertToJson r (convertFromJson r v) json =
      (r.parse (r.accept v).1).getD .null := if_pos rfl
  rw [hdecode]
  constructor
  · intro hsame
    cases hparse : r.parse (r.accept v).1 with
    | none =>
      obtain rfl : Json.null = v := by simpa [hparse] using hsame
      rfl
    | some w =>
      obtain rfl : w = v := by simpa [hparse] using hsame
      exact hdocumented.finite w hparse
  · intro hfinite
    rw [hdocumented.parse (hdocumented.accept.trans hfinite)]
    rfl

/-- A message of another type leaves the `Document` as it is. -/
theorem convertToJson_of_ne {message : Message} (htype : message.contentType ≠ "application/json") :
    convertToJson r message json = json := if_neg htype

end Converter

/-! ### A conversation -/

/-- A transceiver that messages are sent through, the `Document` that the receiver decodes them
into, and what was given to `send` with the last one: a value, or null for a text. -/
structure Conversation (ν : Type) where
  sender : Transceiver
  document : Json ν
  given : Json ν

namespace Conversation

open Transceiver (Message)

variable {ν : Type} (r : RapidJson ν)

/-- What happens: one of the two overloads of `send` is called, or anything else happens to the
transceiver. -/
inductive Event (ν : Type)
  | document (message : Json ν) (route : String) (mandatory : Bool)
  | text (message route : String) (mandatory : Bool)
  | other (e : Transceiver.Event)

/-- The event is a call of `send`. -/
def isSend : Transceiver.Event → Bool
  | .send _ _ _ => true
  | _ => false

/-- The envelopes that have been published since. -/
def published (before after : Transceiver) : List Message :=
  (after.log.drop before.log.length).filterMap fun
    | .published _ _ _ envelope _ => some envelope
    | _ => none

/-- A call of `send` has returned, and what has been published is decoded. -/
def sent (s : Conversation ν) (result : Transceiver × Bool) (given : Json ν) : Conversation ν where
  sender := result.1
  document := (published s.sender result.1).foldl (fun json message ↦ convertToJson r message json)
    s.document
  given := if result.2 then given else s.given

/-- One event. -/
def step (s : Conversation ν) : Event ν → Option (Conversation ν)
  | .document message route mandatory =>
    if s.sender.crashed then none
    else some (s.sent r (s.sender.sendDocument r message route mandatory) message)
  | .text message route mandatory =>
    if s.sender.crashed then none
    else some (s.sent r (s.sender.send message route mandatory) .null)
  | .other e => if isSend e then none else (s.sender.step e).map fun t ↦ { s with sender := t }

/-- The runs of a conversation from any state of the sender and any content of the `Document`. -/
def machine : Machine (Conversation ν) (Event ν) where
  init s := Transceiver.machine.Reachable s.sender ∧ s.given = s.document
  step := step r

/-- The `Document` is what the last message stands for. -/
def Agrees (s : Conversation ν) : Prop := s.document = s.given

/-- A JSON message is finite, and a text message comes when the `Document` is null. -/
def Decodable (s : Conversation ν) : Event ν → Prop
  | .document message _ _ => s.sender.state = .eReady → message.isFinite r.finite = true
  | .text _ _ _ => s.sender.state = .eReady → s.document = .null
  | .other _ => True

variable {r} {s s' : Conversation ν} {e : Event ν} {t : Transceiver}

/-- Only a transceiver that is ready publishes anything, and it publishes the envelope. -/
theorem published_publish (hwf : t.WellFormed) (hcrashed : t.crashed = false) (envelope : Message)
    (route : String) (mandatory : Bool) :
    published t (t.publish envelope route mandatory).1 =
        (if t.state = .eReady then [envelope] else []) ∧
      (t.publish envelope route mandatory).2 = decide (t.state = .eReady) := by
  unfold Transceiver.publish
  by_cases hready : t.state = .eReady
  · obtain ⟨c, hchannel, -⟩ := hwf.running (by simp [hready]) hcrashed
    simp [hready, published, Transceiver.observe, Transceiver.onChannel, hchannel]
  · simp [hready, published]

/-- What is published of a call of `send` is decoded. -/
theorem sent_publish (hwf : s.sender.WellFormed) (hcrashed : s.sender.crashed = false)
    (envelope : Message) (route : String) (mandatory : Bool) (given : Json ν) :
    s.sent r (s.sender.publish envelope route mandatory) given =
      { sender := (s.sender.publish envelope route mandatory).1
        document := if s.sender.state = .eReady then convertToJson r envelope s.document
          else s.document
        given := if s.sender.state = .eReady then given else s.given } := by
  obtain ⟨hpublished, hresult⟩ := published_publish hwf hcrashed envelope route mandatory
  unfold sent
  rw [hpublished, hresult]
  by_cases hready : s.sender.state = .eReady
  · simp [hready]
  · simp [hready]

/-- A step after which the `Document` still agrees is one that can be decoded. -/
theorem agrees_step (hwf : s.sender.WellFormed) (hagrees : s.Agrees) (hstep : s.step r e = some s')
    (hdocumented : ∀ v route mandatory, e = .document v route mandatory → r.Documented v) :
    s'.Agrees ↔ s.Decodable r e := by
  cases e with
  | document message route mandatory =>
    obtain ⟨hcrashed, hstep⟩ := Option.ite_none_left_eq_some.mp hstep
    rw [← Option.some.inj hstep, Transceiver.sendDocument,
      sent_publish hwf (by simpa using hcrashed)]
    by_cases hready : s.sender.state = .eReady
    · simp only [Agrees, Decodable, hready, if_true, true_implies]
      exact convertToJson_convertFromJson (hdocumented message route mandatory rfl)
    · simpa [Agrees, Decodable, hready] using hagrees
  | text message route mandatory =>
    obtain ⟨hcrashed, hstep⟩ := Option.ite_none_left_eq_some.mp hstep
    rw [← Option.some.inj hstep, Transceiver.send, sent_publish hwf (by simpa using hcrashed)]
    by_cases hready : s.sender.state = .eReady
    · simp only [Agrees, Decodable, hready, if_true, true_implies]
      rw [convertToJson_of_ne (by simp)]
    · simpa [Agrees, Decodable, hready] using hagrees
  | other e =>
    obtain ⟨-, hstep⟩ := Option.ite_none_left_eq_some.mp hstep
    obtain ⟨t, -, rfl⟩ := Option.map_eq_some_iff.mp hstep
    simpa [Agrees, Decodable] using hagrees

theorem wellFormed_step (hwf : s.sender.WellFormed) (hstep : s.step r e = some s') :
    s'.sender.WellFormed := by
  cases e with
  | document message route mandatory =>
    obtain ⟨hcrashed, hstep⟩ := Option.ite_none_left_eq_some.mp hstep
    exact Option.some.inj hstep ▸ hwf.publish (by simpa using hcrashed) _ route mandatory
  | text message route mandatory =>
    obtain ⟨hcrashed, hstep⟩ := Option.ite_none_left_eq_some.mp hstep
    exact Option.some.inj hstep ▸ hwf.publish (by simpa using hcrashed) _ route mandatory
  | other e =>
    obtain ⟨-, hstep⟩ := Option.ite_none_left_eq_some.mp hstep
    obtain ⟨t, ht, rfl⟩ := Option.map_eq_some_iff.mp hstep
    exact Transceiver.wellFormed_step hwf ht

/-- All along a conversation the `Document` is what the last message stands for, exactly when every
message can be decoded. -/
theorem agrees_iff_decodable {es : List (Event ν)} (hinit : (machine r).init s)
    (hrun : (machine r).run s es = some s')
    (hdocumented : ∀ v route mandatory, .document v route mandatory ∈ es → r.Documented v) :
    ((machine r).Meets (fun s _ ↦ s.Agrees) s es ∧ s'.Agrees) ↔
      (machine r).Meets (fun s e ↦ s.Decodable r e) s es := by
  refine Machine.meets_iff_of_invariant (J := fun s ↦ s.sender.WellFormed)
    (fun s e s' hwf _ _ hstep ↦ wellFormed_step hwf hstep)
    (fun e he s s' hwf hagrees hstep ↦ ?_) hrun
    (Transceiver.wellFormed_of_reachable hinit.1) hinit.2.symm
  refine agrees_step hwf hagrees hstep fun v route mandatory hv ↦ ?_
  exact hdocumented v route mandatory (hv ▸ he)

/-- RapidJSON on the list of a 1 and on the list of a 1 and a NaN, numbers being naturals or NaN. -/
def listing : RapidJson (Option ℕ) where
  finite := Option.isSome
  accept
    | .array [.number (some 1)] => ("[1]", true)
    | .array [.number (some 1), .number none] => ("[1,", false)
    | _ => ("null", true)
  parse text :=
    if text = "[1]" then some (.array [.number (some 1)])
    else if text = "null" then some .null
    else none

theorem listing_documented : listing.Documented (.array [.number (some 1)]) ∧
    listing.Documented (.array [.number (some 1), .number none]) := by
  refine ⟨⟨rfl, fun _ ↦ rfl, fun w hw ↦ ?_⟩, ⟨rfl, by simp [listing], fun w hw ↦ ?_⟩⟩
  · obtain rfl := Option.some.inj hw
    rfl
  · cases hw

/-- A new sender, and a `Document` that is null. -/
def fresh : Conversation (Option ℕ) where
  sender := Transceiver.new "exchange" "" "route" false
  document := .null
  given := .null

/-- The sender is started and the broker answers. -/
def ready : List (Event (Option ℕ)) :=
  [.other (.start (some 0)), .other (.callback 0 .createChannelReady),
    .other (.callback 0 .createExchangeSuccess)]

/-- A text is sent, and then a list. -/
def textFirst : List (Event (Option ℕ)) :=
  ready ++ [.text "text" "route" false, .document (.array [.number (some 1)]) "route" false]

theorem agrees_textFirst :
    ∃ s, (machine listing).run fresh textFirst = some s ∧
      s.document = .array [.number (some 1)] ∧ s.Agrees := by
  obtain ⟨s, hrun, hdocument⟩ : ∃ s, (machine listing).run fresh textFirst = some s ∧
      s.document = .array [.number (some 1)] := ⟨_, rfl, rfl⟩
  have hinit : (machine listing).init fresh := ⟨⟨_, [], ⟨_, _, _, _, rfl⟩, rfl⟩, rfl⟩
  refine ⟨s, hrun, hdocument, ((agrees_iff_decodable hinit hrun ?_).mpr ?_).2⟩
  · intro v route mandatory hmem
    obtain ⟨rfl, -, -⟩ : v = .array [.number (some 1)] ∧ route = "route" ∧ mandatory = false := by
      simpa [textFirst, ready] using hmem
    exact listing_documented.1
  · refine Machine.meets_cons trivial rfl (Machine.meets_cons trivial rfl ?_)
    refine Machine.meets_cons trivial rfl (Machine.meets_cons (fun _ ↦ rfl) rfl ?_)
    exact Machine.meets_cons (fun _ ↦ rfl) rfl trivial

/-- A text after a list leaves the list in the `Document`, and a list with a NaN leaves null. -/
theorem not_agrees_listFirst :
    (∃ s, (machine listing).run fresh
      (ready ++ [.document (.array [.number (some 1)]) "route" false, .text "text" "route" false]) =
        some s ∧ s.sender.state = .eReady ∧ ¬ s.Agrees) ∧
    ∃ s, (machine listing).run fresh
      (ready ++ [.document (.array [.number (some 1), .number none]) "route" false]) = some s ∧
        s.sender.state = .eReady ∧ ¬ s.Agrees := by
  refine ⟨⟨_, rfl, rfl, fun hagrees ↦ ?_⟩, ⟨_, rfl, rfl, fun hagrees ↦ ?_⟩⟩
  · have hsame : (.array [.number (some 1)] : Json (Option ℕ)) = .null := hagrees
    cases hsame
  · have hsame : (.null : Json (Option ℕ)) = .array [.number (some 1), .number none] := hagrees
    cases hsame

end Conversation

end AmqpAsio
