import DripVpn.Foundations.Machine
import DripVpn.Ui.Event
import Mathlib.Data.List.Basic

/-!
# The event channel from Kotlin to Dart

`Bridge.sendToFlutter` encodes an event with Gson and passes the text to
`N2FEventChannelHandler.send`, which hands it to the sink of the listening Dart stream or buffers
it while nobody has listened yet. The machine `eventChannel` runs the handler against the
platform: `listening` is the sink of the stream that listens at present, and a text handed to any
other sink is dropped by the platform.

The text of an event (`toJson`) and Dart's `jsonDecode` belong to other packages and are
parameters; `gsonString` is Gson's encoding of a string, which the buffered path applies to a
text that is JSON already. The handler also keeps the sink of a cancelled stream.
`delivered_append_buffered_iff` shows that the channel is faithful exactly in the runs where
neither happens: no stream starts to listen while events are buffered, and no event is sent
between the end of a stream and the start of the next.
-/

open Reactive

namespace EventChannel

/-- `\uXXXX` with lower-case hexadecimal digits. -/
def unicodeEscape (n : ℕ) : List Char :=
  ['\\', 'u', Nat.digitChar (n / 4096 % 16), Nat.digitChar (n / 256 % 16),
    Nat.digitChar (n / 16 % 16), Nat.digitChar (n % 16)]

/-- How Gson writes one character of a string, with the HTML-safe escapes that are its
default (`<`, `>`, `&`, `=` and the apostrophe). -/
def gsonEscape (c : Char) : List Char :=
  if c = '"' || c = '\\' then ['\\', c]
  else if c = '\t' then ['\\', 't']
  else if c.toNat = 8 then ['\\', 'b']
  else if c = '\n' then ['\\', 'n']
  else if c = '\r' then ['\\', 'r']
  else if c.toNat = 12 then ['\\', 'f']
  -- other control characters, the line separators and what HTML gives a meaning
  else if c.toNat < 32 || [0x2028, 0x2029, 0x3c, 0x3e, 0x26, 0x3d, 0x27].contains c.toNat then
    unicodeEscape c.toNat
  else [c]

/-- `gson.toJson` of a string: a JSON string literal. -/
def gsonString (s : String) : String :=
  String.ofList ('"' :: s.toList.flatMap gsonEscape ++ ['"'])

/-- No character is written as nothing. -/
theorem one_le_length_gsonEscape (c : Char) : 1 ≤ (gsonEscape c).length := by
  unfold gsonEscape
  split_ifs <;> simp [unicodeEscape]

/-- Encoding a string never returns the string itself: the quotes make it longer. -/
theorem gsonString_ne (s : String) : gsonString s ≠ s := by
  intro h
  have hlist : '"' :: s.toList.flatMap gsonEscape ++ ['"'] = s.toList := by
    rw [gsonString] at h
    rw [← String.toList_ofList (l := '"' :: s.toList.flatMap gsonEscape ++ ['"']), h]
  -- escaping never shortens, and the two quotes lengthen
  have hle : ∀ cs : List Char, cs.length ≤ (cs.flatMap gsonEscape).length := by
    intro cs
    induction cs with
    | nil => simp
    | cons c cs ih =>
      have hc := one_le_length_gsonEscape c
      rw [List.flatMap_cons, List.length_append, List.length_cons]
      omega
  have hlength := congrArg List.length hlist
  have hs := hle s.toList
  simp only [List.cons_append, List.length_cons, List.length_append, List.length_nil] at hlength
  omega

/-- The variables of `N2FEventChannelHandler`. Sinks are numbered. -/
structure N2FEventChannelHandler where
  sink : Option ℕ
  omissionEvents : List String
  deriving DecidableEq

/-- The handler and the sink of the stream that listens at present. -/
structure ChannelState where
  handler : N2FEventChannelHandler
  listening : Option ℕ
  deriving DecidableEq

/-- What can happen to the channel. -/
inductive ChannelAction where
  | sendToFlutter (event : Event)
  | onListen (sink : ℕ)
  | onCancel
  deriving DecidableEq

/-- `sink.success(text)`: what reaches the listening stream. -/
def success (listening : Option ℕ) (sink : ℕ) (text : String) : List String :=
  if listening = some sink then [text] else []

/-- `N2FEventChannelHandler.send`. -/
def send (s : ChannelState) (event : String) : ChannelState × List String :=
  match s.handler.sink with
  | none => ({ s with handler := { s.handler with
      omissionEvents := s.handler.omissionEvents ++ [event] } }, [])
  -- the sink of a stream that ended is not `null`
  | some sink => (s, success s.listening sink event)

/-- `N2FEventChannelHandler.onListen` for a new stream with the sink `sink`. -/
def onListen (s : ChannelState) (sink : ℕ) : ChannelState × List String :=
  ({ handler := { sink := some sink, omissionEvents := [] }, listening := some sink },
    -- the texts in the buffer are encoded a second time
    s.handler.omissionEvents.flatMap fun it => success (some sink) sink (gsonString it))

/-- `N2FEventChannelHandler.onCancel` does nothing; the stream ends all the same. -/
def onCancel (s : ChannelState) : ChannelState := { s with listening := none }

section

variable (toJson : Event → String)

/-- The channel as a reactive machine; observed are the texts handed to listening streams. -/
def eventChannel : Machine ChannelState ChannelAction String where
  init := { handler := { sink := none, omissionEvents := [] }, listening := none }
  step s
    | .sendToFlutter event => some (send s (toJson event))
    | .onListen sink => some (onListen s sink)
    | .onCancel => some (onCancel s, [])

/-- The event an action sends. -/
def ChannelAction.event : ChannelAction → Option Event
  | .sendToFlutter event => some event
  | _ => none

/-- The texts passed to `send`. -/
def sentTexts (as : List ChannelAction) : List String :=
  (as.filterMap ChannelAction.event).map toJson

/-- The step neither starts a stream while events are buffered nor sends to the sink of a
stream that ended. -/
def Direct (s : ChannelState) : ChannelAction → Prop
  | .sendToFlutter _ => s.handler.sink = s.listening
  | .onListen _ => s.handler.omissionEvents = []
  | .onCancel => True

/-- What holds after every run. Before the first stream everything sent is buffered, afterwards
nothing is; nothing is delivered that was not sent; and the run is faithful exactly when all its
steps were direct. -/
structure Tracked (as : List ChannelAction) (delivered : List String) (s : ChannelState) :
    Prop where
  unheard : s.handler.sink = none → delivered = [] ∧
    s.handler.omissionEvents = sentTexts toJson as ∧ s.listening = none
  heard : s.handler.sink ≠ none → s.handler.omissionEvents = []
  length_le : delivered.length + s.handler.omissionEvents.length ≤ (sentTexts toJson as).length
  faithful_iff : delivered ++ s.handler.omissionEvents = sentTexts toJson as ↔
    (eventChannel toJson).AllSteps Direct (eventChannel toJson).init as

variable {toJson} {as : List ChannelAction} {delivered : List String} {s : ChannelState}

@[simp]
theorem sentTexts_concat (a : ChannelAction) :
    sentTexts toJson (as ++ [a]) = sentTexts toJson as ++ (a.event.map toJson).toList := by
  cases a <;> simp [sentTexts, ChannelAction.event]

/-- Handing texts to the listening sink delivers all of them. -/
theorem flatMap_success (texts : List String) (sink : ℕ) :
    (texts.flatMap fun it => success (some sink) sink (gsonString it)) =
      texts.map gsonString := by
  rw [List.map_eq_flatMap]
  simp only [success, if_true]

/-- Sending keeps the invariant. -/
theorem Tracked.sendToFlutter (h : Tracked toJson as delivered s)
    (hrun : (eventChannel toJson).run (eventChannel toJson).init as = some (s, delivered))
    (event : Event) :
    Tracked toJson (as ++ [.sendToFlutter event]) (delivered ++ (send s (toJson event)).2)
      (send s (toJson event)).1 := by
  have hlength := h.length_le
  have hiff : (eventChannel toJson).AllSteps Direct (eventChannel toJson).init
      (as ++ [.sendToFlutter event]) ↔
        delivered ++ s.handler.omissionEvents = sentTexts toJson as ∧
          s.handler.sink = s.listening := by
    rw [Machine.allSteps_concat_iff hrun, h.faithful_iff]
    exact Iff.rfl
  cases hsink : s.handler.sink with
  | none =>
    -- nobody has listened yet: the event joins the buffer
    obtain ⟨hdelivered, hbuffered, hlistening⟩ := h.unheard hsink
    have hsend : send s (toJson event) = ({ s with handler := { s.handler with
        omissionEvents := s.handler.omissionEvents ++ [toJson event] } }, []) := by
      simp [send, hsink]
    rw [hsend]
    refine ⟨fun _ => ⟨?_, ?_, hlistening⟩, fun hne => absurd hsink hne, ?_, ?_⟩
    · simp [hdelivered]
    · simp [hbuffered, ChannelAction.event]
    · simp [ChannelAction.event]
      omega
    · rw [hiff, hsink, hlistening]
      simp [ChannelAction.event, ← List.append_assoc]
  | some sink =>
    -- somebody has listened, so the buffer was flushed and stays empty
    have hnone : s.handler.omissionEvents = [] := h.heard (by simp [hsink])
    have hsend : send s (toJson event) = (s, success s.listening sink (toJson event)) := by
      simp [send, hsink]
    rw [hnone] at hlength hiff
    rw [hsend]
    refine ⟨fun hne => ?_, h.heard, ?_, ?_⟩
    · rw [hsink] at hne
      exact absurd hne (by simp)
    · by_cases hl : s.listening = some sink <;> simp [success, hl, hnone, ChannelAction.event] <;>
        simp at hlength <;> omega
    · rw [hiff, hsink]
      by_cases hl : s.listening = some sink
      · simp [success, hl, hnone, ChannelAction.event]
      · -- the text goes to the sink of a stream that ended, so one text is missing for good
        have hl' : ¬ some sink = s.listening := fun he => hl he.symm
        simp only [success, if_neg hl, hnone, List.append_nil, hl', and_false, iff_false]
        intro heq
        have hlen := congrArg List.length heq
        simp [ChannelAction.event] at hlen hlength
        omega

/-- Starting a stream keeps the invariant: flushing a non-empty buffer re-encodes its texts. -/
theorem Tracked.onListen (h : Tracked toJson as delivered s)
    (hrun : (eventChannel toJson).run (eventChannel toJson).init as = some (s, delivered))
    (sink : ℕ) :
    Tracked toJson (as ++ [.onListen sink]) (delivered ++ (onListen s sink).2)
      (onListen s sink).1 := by
  have hlength := h.length_le
  have hiff : (eventChannel toJson).AllSteps Direct (eventChannel toJson).init
      (as ++ [.onListen sink]) ↔
        delivered ++ s.handler.omissionEvents = sentTexts toJson as ∧
          s.handler.omissionEvents = [] := by
    rw [Machine.allSteps_concat_iff hrun, h.faithful_iff]
    exact Iff.rfl
  simp only [EventChannel.onListen, flatMap_success]
  refine ⟨fun hne => absurd hne (by simp), fun _ => rfl, ?_, ?_⟩
  · simpa [ChannelAction.event] using hlength
  · rw [hiff]
    simp only [sentTexts_concat, ChannelAction.event, Option.map_none, Option.toList_none,
      List.append_nil]
    -- only the first stream can find a buffer that is not empty
    cases hsink : s.handler.sink with
    | some old =>
      have hnone : s.handler.omissionEvents = [] := h.heard (by simp [hsink])
      simp [hnone]
    | none =>
      obtain ⟨hdelivered, hbuffered, -⟩ := h.unheard hsink
      rw [hdelivered, ← hbuffered]
      cases s.handler.omissionEvents with
      | nil => simp
      -- the first text of the buffer already differs from what was sent
      | cons text texts => simp [gsonString_ne]

/-- Ending a stream keeps the invariant. -/
theorem Tracked.onCancel (h : Tracked toJson as delivered s)
    (hrun : (eventChannel toJson).run (eventChannel toJson).init as = some (s, delivered)) :
    Tracked toJson (as ++ [.onCancel]) (delivered ++ []) (onCancel s) := by
  have hsent : sentTexts toJson (as ++ [.onCancel]) = sentTexts toJson as := by
    simp [ChannelAction.event]
  constructor
  · intro hsink
    obtain ⟨hdelivered, hbuffered, -⟩ := h.unheard hsink
    exact ⟨by simpa using hdelivered, by rw [hsent]; exact hbuffered, rfl⟩
  · exact h.heard
  · rw [hsent, List.append_nil]
    exact h.length_le
  · rw [hsent, List.append_nil, Machine.allSteps_concat_iff hrun]
    simp only [Direct, and_true]
    exact h.faithful_iff

/-- The invariant holds after every run. -/
theorem tracked_of_run
    (hrun : (eventChannel toJson).run (eventChannel toJson).init as = some (s, delivered)) :
    Tracked toJson as delivered s := by
  refine Machine.run_induction (P := Tracked toJson) ?_ ?_ hrun
  · exact ⟨fun _ => ⟨rfl, rfl, rfl⟩, fun h => absurd rfl h, Nat.le_refl _, by
      simp [eventChannel, sentTexts, Machine.AllSteps]⟩
  · intro as delivered s a s' o hrun h hstep
    cases a with
    | sendToFlutter event =>
      obtain rfl : s' = (send s (toJson event)).1 :=
        (congrArg Prod.fst (Option.some.inj hstep)).symm
      obtain rfl : o = (send s (toJson event)).2 :=
        (congrArg Prod.snd (Option.some.inj hstep)).symm
      exact h.sendToFlutter hrun event
    | onListen sink =>
      obtain rfl : s' = (EventChannel.onListen s sink).1 :=
        (congrArg Prod.fst (Option.some.inj hstep)).symm
      obtain rfl : o = (EventChannel.onListen s sink).2 :=
        (congrArg Prod.snd (Option.some.inj hstep)).symm
      exact h.onListen hrun sink
    | onCancel =>
      obtain rfl : s' = EventChannel.onCancel s :=
        (congrArg Prod.fst (Option.some.inj hstep)).symm
      obtain rfl : o = [] := (congrArg Prod.snd (Option.some.inj hstep)).symm
      exact h.onCancel hrun

end

/-- What Dart's `jsonDecode` can return for a text of this channel: an object with its `name` and
`data` entries, or a value that is not an object. -/
inductive DartValue where
  | object (name : String) (data : Option EventData)
  | other
  deriving DecidableEq

/-- Delivered texts that begin the texts sent decode, one by one, to the events sent. -/
theorem map_jsonDecode_of_append_eq {toJson : Event → String}
    {jsonDecode : String → Option DartValue} {events : List Event}
    {delivered buffered : List String}
    (hdecode : ∀ event ∈ events,
      jsonDecode (toJson event) = some (.object event.name event.data))
    (h : delivered ++ buffered = events.map toJson) :
    delivered.map jsonDecode =
      (events.take delivered.length).map fun event => some (.object event.name event.data) := by
  have hdelivered : delivered = (events.take delivered.length).map toJson := by
    rw [List.map_take, ← h, List.take_left]
  calc delivered.map jsonDecode
      = ((events.take delivered.length).map toJson).map jsonDecode := by rw [← hdelivered]
    _ = (events.take delivered.length).map fun event =>
          some (.object event.name event.data) := by
        rw [List.map_map]
        exact List.map_congr_left fun event hevent => hdecode event (List.mem_of_mem_take hevent)

/-- For every interleaving of sends, streams that start and streams that end: the texts handed to
listening streams followed by those still buffered are exactly the texts sent, if and only if no
stream starts while events are buffered and no event is sent to the sink of a stream that ended.
Then the delivered texts decode, in order, to objects with the `name` and `data` of the events
sent. -/
theorem delivered_append_buffered_iff {toJson : Event → String} {as : List ChannelAction}
    {delivered : List String} {s : ChannelState}
    (hrun : (eventChannel toJson).run (eventChannel toJson).init as = some (s, delivered)) :
    (delivered ++ s.handler.omissionEvents = sentTexts toJson as ↔
      (eventChannel toJson).AllSteps Direct (eventChannel toJson).init as) ∧
    ∀ jsonDecode : String → Option DartValue,
      (∀ event ∈ as.filterMap ChannelAction.event,
        jsonDecode (toJson event) = some (.object event.name event.data)) →
      (eventChannel toJson).AllSteps Direct (eventChannel toJson).init as →
      delivered.map jsonDecode =
        ((as.filterMap ChannelAction.event).take delivered.length).map fun event =>
          some (.object event.name event.data) := by
  have h := tracked_of_run hrun
  refine ⟨h.faithful_iff, ?_⟩
  intro jsonDecode hdecode hall
  exact map_jsonDecode_of_append_eq hdecode (h.faithful_iff.mpr hall)

/-- The text of the event that reports a connected service. -/
def connectedText : String := "\x7b\"name\":\"vpn_state_event\",\"data\":\"connected\"\x7d"

/-- `gson.toJson` on the one event the runs below send. -/
def connectedToJson (_ : Event) : String := connectedText

/-- `jsonDecode` on the text of that event. -/
def connectedDecode (text : String) : Option DartValue :=
  if text = connectedText then some (.object "vpn_state_event" (some (.state "connected")))
  else some .other

/-- A stream that listens from the start is told of the connection. -/
theorem delivered_append_buffered_iff_listening :
    ∃ s, (eventChannel connectedToJson).run (eventChannel connectedToJson).init
        [.onListen 0, .sendToFlutter (.vpnStateEvent .connected)] = some (s, [connectedText]) ∧
      [connectedText] ++ s.handler.omissionEvents = [connectedText] ∧
      [connectedText].map connectedDecode =
        [some (.object "vpn_state_event" (some (.state "connected")))] := by
  have hdecode : ∀ event ∈
      [.onListen 0, .sendToFlutter (.vpnStateEvent .connected)].filterMap ChannelAction.event,
      connectedDecode (connectedToJson event) = some (.object event.name event.data) := by
    simp [ChannelAction.event, connectedDecode, connectedToJson, Event.name, Event.data,
      VpnStatus.state]
  refine ⟨_, rfl, ?_⟩
  obtain ⟨hiff, hdecoded⟩ := delivered_append_buffered_iff
    (show (eventChannel connectedToJson).run (eventChannel connectedToJson).init
      [.onListen 0, .sendToFlutter (.vpnStateEvent .connected)] =
        some (_, [connectedText]) from rfl)
  exact ⟨hiff.mpr ⟨rfl, rfl, trivial⟩, hdecoded connectedDecode hdecode ⟨rfl, rfl, trivial⟩⟩

/-- The two ways the channel is unfaithful: an event sent before the first stream listens arrives
as a JSON string literal of its text, which does not decode to an object, and an event sent
between two streams never arrives. -/
theorem not_delivered_append_buffered :
    (∃ s text, (eventChannel connectedToJson).run (eventChannel connectedToJson).init
        [.sendToFlutter (.vpnStateEvent .connected), .onListen 0] = some (s, [text]) ∧
      text = "\"\x7b\\\"name\\\":\\\"vpn_state_event\\\",\\\"data\\\":\\\"connected\\\"\x7d\"" ∧
      [text] ++ s.handler.omissionEvents ≠ [connectedText]) ∧
    (∃ s, (eventChannel connectedToJson).run (eventChannel connectedToJson).init
        [.onListen 0, .onCancel, .sendToFlutter (.vpnStateEvent .connected), .onListen 1] =
          some (s, []) ∧
      [] ++ s.handler.omissionEvents ≠ [connectedText]) := by
  refine ⟨⟨_, _, rfl, rfl, ?_⟩, ⟨_, rfl, ?_⟩⟩
  · intro h
    exact gsonString_ne connectedText (List.head_eq_of_cons_eq h)
  · intro h
    exact absurd (congrArg List.length h) (by decide)

end EventChannel
