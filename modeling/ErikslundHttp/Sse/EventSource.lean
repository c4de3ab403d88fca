import ErikslundHttp.Sse.Basic

/-!
# Reading an event stream back

`EventSource` is the parser of the event stream format, fed with bytes as they come: lines end at
CR, LF or CRLF, a line is a comment or a field with its value, and an empty line dispatches the
event that the fields before it have described.

* `feed_buildEventFrame`: a frame of the encoder is read as the one event it was made for, whatever
  bytes its name and its data have.
* `event_stream_round_trip`: retry and heartbeat frames are read as no event, and each frame leaves
  the parser between two events, so that frames are read one after the other.
-/

namespace ErikslundHttp

/-! ### The parser -/

/-- What a client is told. -/
structure StreamEvent where
  type : Bytes
  data : Bytes
  lastEventId : Bytes
  deriving DecidableEq, Repr

/-- A client that reads a stream byte by byte, as the standard says. -/
structure EventSource where
  /-- The line that has begun. -/
  line : Bytes := []
  /-- The last byte was a CR, so that an LF belongs to the same line end. -/
  afterCr : Bool := false
  /-- The data of the event that has begun. -/
  data : Bytes := []
  eventType : Bytes := []
  lastEventId : Bytes := []
  reconnectionTime : Option ℕ := none
  /-- The events dispatched so far. -/
  events : List StreamEvent := []
  deriving DecidableEq, Repr

namespace EventSource

/-- The type of an event that names none. -/
def kDefaultType : Bytes := ascii "message"

/-- The value of a field, without one leading space. -/
def withoutSpace (value : Bytes) : Bytes :=
  match value with
  | [] => []
  | first :: rest => if first = space then rest else first :: rest

/-- What a field does; those with other names are ignored. -/
def processField (s : EventSource) (field value : Bytes) : EventSource :=
  if field = ascii "event" then { s with eventType := value }
  else if field = ascii "data" then { s with data := s.data ++ value ++ [LF] }
  else if field = ascii "id" then
    if value.contains 0 then s else { s with lastEventId := value }
  else if field = ascii "retry" then
    if !value.isEmpty && value.all isDecimalDigit then
      { s with reconnectionTime := some (decimalValue value) }
    else s
  else s

/-- An event without data is not dispatched. -/
def dispatch (s : EventSource) : EventSource :=
  if s.data = [] then { s with eventType := [] }
  else
    let event : StreamEvent :=
      { type := if s.eventType = [] then kDefaultType else s.eventType
        data := if s.data.getLast? = some LF then s.data.dropLast else s.data
        lastEventId := s.lastEventId }
    { s with data := [], eventType := [], events := s.events ++ [event] }

/-- What a line does: an empty one ends an event, a comment nothing. -/
def processLine (s : EventSource) (line : Bytes) : EventSource :=
  if line = [] then s.dispatch
  else if line.head? = some (byte ':') then s
  else
    match Scan.find (byte ':') line with
    | some colon => s.processField (line.take colon) (withoutSpace (line.drop (colon + 1)))
    | none => s.processField line []

/-- The next byte; a CR LF is one line end. -/
def feedByte (s : EventSource) (b : UInt8) : EventSource :=
  if b = LF ∧ s.afterCr = true then { s with afterCr := false }
  else if b = CR ∨ b = LF then
    { s with line := [], afterCr := b = CR }.processLine s.line
  else { s with line := s.line ++ [b], afterCr := false }

/-- Some more bytes. -/
def feed (s : EventSource) (bytes : Bytes) : EventSource := bytes.foldl feedByte s

end EventSource

/-! ### What the frames say -/

/-- Each CRLF, lone CR and lone LF is one LF. -/
def normalizeBreaks : Bytes → Bytes
  | [] => []
  | b :: rest =>
    if b = CR then
      if rest.head? = some LF then normalizeBreaks rest else LF :: normalizeBreaks rest
    else b :: normalizeBreaks rest

/-- The frames of an event stream. -/
inductive StreamFrame where
  | event (name data : Bytes)
  | retry (retryHint : ℕ)
  | heartbeat

/-- The bytes of a frame. -/
def StreamFrame.text : StreamFrame → Bytes
  | event name data => buildEventFrame name data
  | retry retryHint => buildRetryFrame retryHint
  | heartbeat => kHeartbeatFrame

/-- The event a frame was made for. -/
def StreamFrame.meant : StreamFrame → Option StreamEvent
  | event name data => some
      { type := if name = [] then EventSource.kDefaultType
          else name.map fun b => if b = CR ∨ b = LF then space else b
        data := normalizeBreaks data
        lastEventId := [] }
  | retry _ => none
  | heartbeat => none

/-! ### The lines of the encoder -/

theorem dataLines_cons (b : UInt8) (rest : Bytes) : ∃ line lines, dataLines rest = line :: lines ∧
    dataLines (b :: rest) =
      if b = CR then if rest.head? = some LF then line :: lines else [] :: line :: lines
      else if b = LF then [] :: line :: lines
      else (b :: line) :: lines := by
  cases h : dataLines rest with
  | nil =>
    -- a payload has at least one line
    cases rest with
    | nil => cases h
    | cons c rest =>
      rw [dataLines] at h
      split at h
      · cases h
      · split_ifs at h
  | cons line lines =>
    refine ⟨line, lines, rfl, ?_⟩
    rw [dataLines, h]

theorem dataLines_plain {payload line : Bytes} (h : line ∈ dataLines payload) :
    CR ∉ line ∧ LF ∉ line := by
  induction payload generalizing line with
  | nil =>
    rw [List.mem_singleton.1 h]
    exact ⟨nofun, nofun⟩
  | cons b rest ih =>
    obtain ⟨first, lines, hrest, hcons⟩ := dataLines_cons b rest
    rw [hrest] at ih
    rw [hcons] at h
    split_ifs at h with hcr hlf hlf
    · exact ih h
    · rcases List.mem_cons.1 h with rfl | h
      · exact ⟨nofun, nofun⟩
      · exact ih h
    · rcases List.mem_cons.1 h with rfl | h
      · exact ⟨nofun, nofun⟩
      · exact ih h
    · rcases List.mem_cons.1 h with rfl | h
      · obtain ⟨hfirst, hfirst'⟩ := ih List.mem_cons_self
        simp only [List.mem_cons, not_or]
        exact ⟨⟨Ne.symm hcr, hfirst⟩, Ne.symm hlf, hfirst'⟩
      · exact ih (List.mem_cons_of_mem first h)

/-- The lines of a payload, each with its end, are the payload with its breaks made equal. -/
theorem flatMap_dataLines (payload : Bytes) :
    (dataLines payload).flatMap (· ++ [LF]) = normalizeBreaks payload ++ [LF] := by
  induction payload with
  | nil => rfl
  | cons b rest ih =>
    obtain ⟨first, lines, hrest, hcons⟩ := dataLines_cons b rest
    rw [hrest, List.flatMap_cons] at ih
    rw [hcons, normalizeBreaks]
    split_ifs with hcr hlf hlf
    · exact ih
    · rw [List.flatMap_cons, List.flatMap_cons, ih]
      rfl
    · rw [List.flatMap_cons, List.flatMap_cons, ih, hlf]
      rfl
    · rw [List.flatMap_cons, List.cons_append, List.cons_append, ih]
      rfl

namespace EventSource

variable {s : EventSource}

/-! ### Lines are read one by one -/

/-- The parser is at the start of a line. -/
structure AtLineStart (s : EventSource) : Prop where
  line : s.line = []
  afterCr : s.afterCr = false

theorem feed_append (s : EventSource) (a b : Bytes) : s.feed (a ++ b) = (s.feed a).feed b :=
  List.foldl_append

theorem feed_plain (hcr : s.afterCr = false) {text : Bytes} (h : CR ∉ text ∧ LF ∉ text) :
    s.feed text = { s with line := s.line ++ text } := by
  induction text generalizing s with
  | nil => simp [feed]
  | cons b text ih =>
    simp only [List.mem_cons, not_or] at h
    obtain ⟨⟨hb, htext⟩, hb', htext'⟩ := h
    have hbyte : s.feedByte b = { s with line := s.line ++ [b] } := by
      rw [feedByte, if_neg fun h => hb' h.1.symm, if_neg (by simp [Ne.symm hb, Ne.symm hb'])]
      simp [hcr]
    show (s.feedByte b).feed text = _
    rw [hbyte, ih (s := { s with line := s.line ++ [b] }) hcr ⟨htext, htext'⟩]
    simp

/-- A line and its LF are processed as that line. -/
theorem feed_line (hs : s.AtLineStart) {text : Bytes} (h : CR ∉ text ∧ LF ∉ text) :
    s.feed (text ++ [LF]) = s.processLine text := by
  have hstart : { s with line := [], afterCr := decide (LF = CR) } = s := by
    obtain ⟨hline, hafter⟩ := hs
    cases s
    cases hline
    cases hafter
    rfl
  rw [feed_append, feed_plain hs.afterCr h]
  show feedByte _ LF = _
  rw [feedByte, if_neg (by simp [hs.afterCr]), if_pos (.inr rfl)]
  show ({ s with line := [], afterCr := decide (LF = CR) } : EventSource).processLine
    (s.line ++ text) = _
  rw [hstart, hs.line, List.nil_append]

theorem processField_atLineStart (hs : s.AtLineStart) (field value : Bytes) :
    (s.processField field value).AtLineStart := by
  unfold processField
  split_ifs <;> exact ⟨hs.line, hs.afterCr⟩

theorem processLine_atLineStart (hs : s.AtLineStart) (line : Bytes) :
    (s.processLine line).AtLineStart := by
  unfold processLine
  split_ifs
  · unfold dispatch
    split_ifs <;> exact ⟨hs.line, hs.afterCr⟩
  · exact hs
  · split
    · exact processField_atLineStart hs _ _
    · exact processField_atLineStart hs _ _

theorem feed_lines (hs : s.AtLineStart) {lines : List Bytes}
    (h : ∀ line ∈ lines, CR ∉ line ∧ LF ∉ line) :
    s.feed (lines.flatMap (· ++ [LF])) = lines.foldl processLine s := by
  induction lines generalizing s with
  | nil => rfl
  | cons line lines ih =>
    obtain ⟨hline, hlines⟩ := List.forall_mem_cons.1 h
    rw [List.flatMap_cons, feed_append, feed_line hs hline, List.foldl_cons]
    exact ih (processLine_atLineStart hs line) hlines

/-! ### The lines of a frame -/

/-- A line of a field with a space after its colon. -/
theorem processLine_field {field : Bytes} (hne : field ≠ []) (hfield : byte ':' ∉ field)
    (value : Bytes) : s.processLine (field ++ ascii ": " ++ value) = s.processField field value := by
  have hline : field ++ ascii ": " ++ value = field ++ byte ':' :: space :: value := by
    simp [ascii, byte, space]
  have hhead : (field ++ byte ':' :: space :: value).head? ≠ some (byte ':') := by
    obtain ⟨first, rest, rfl⟩ := List.exists_cons_of_ne_nil hne
    intro heq
    simp only [List.cons_append, List.head?_cons, Option.some.injEq] at heq
    exact hfield (heq ▸ List.mem_cons_self)
  rw [hline, processLine, if_neg (by simp), if_neg hhead, Scan.find_append_cons hfield]
  show s.processField ((field ++ byte ':' :: space :: value).take field.length)
    (withoutSpace ((field ++ byte ':' :: space :: value).drop (field.length + 1))) = _
  rw [List.take_left, Scan.drop_succ_append_cons]
  rfl

theorem processLine_data (value : Bytes) :
    s.processLine (kDataFieldPrefix ++ value) = { s with data := s.data ++ value ++ [LF] } :=
  processLine_field (by decide : ascii "data" ≠ []) (by decide +kernel) value

theorem processLine_event (value : Bytes) :
    s.processLine (kEventFieldPrefix ++ value) = { s with eventType := value } :=
  processLine_field (by decide : ascii "event" ≠ []) (by decide +kernel) value

theorem processLine_retry (value : ℕ) : s.processLine (kRetryFieldPrefix ++ toChars value) =
    { s with reconnectionTime := some value } := by
  have hdigits : (!(toChars value).isEmpty && (toChars value).all isDecimalDigit) = true := by
    rw [Bool.and_eq_true, List.all_eq_true]
    exact ⟨by simpa using toChars_ne_nil value, fun b hb => isDecimalDigit_of_mem_toChars hb⟩
  have hfield : s.processLine (kRetryFieldPrefix ++ toChars value) =
      s.processField (ascii "retry") (toChars value) :=
    processLine_field (by decide : ascii "retry" ≠ []) (by decide +kernel) (toChars value)
  rw [hfield, processField, if_neg (by decide +kernel), if_neg (by decide +kernel),
    if_neg (by decide +kernel), if_pos rfl, if_pos hdigits, decimalValue_toChars]

theorem foldl_processLine_data (lines : List Bytes) :
    (lines.map (kDataFieldPrefix ++ ·)).foldl processLine s =
      { s with data := s.data ++ lines.flatMap (· ++ [LF]) } := by
  induction lines generalizing s with
  | nil => simp
  | cons line lines ih =>
    rw [List.map_cons, List.foldl_cons, processLine_data, ih]
    simp

/-! ### Frames are read as the events they were made for -/

/-- The parser is between two events, and has seen no id. -/
structure Rests (s : EventSource) : Prop extends AtLineStart s where
  data : s.data = []
  eventType : s.eventType = []
  lastEventId : s.lastEventId = []

theorem rests_empty : Rests {} := ⟨⟨rfl, rfl⟩, rfl, rfl, rfl⟩

theorem sanitized_plain (name : Bytes) :
    CR ∉ (name.map fun b => if b = CR ∨ b = LF then space else b) ∧
      LF ∉ (name.map fun b => if b = CR ∨ b = LF then space else b) := by
  have hplain : ∀ b : UInt8, (if b = CR ∨ b = LF then space else b) ≠ CR ∧
      (if b = CR ∨ b = LF then space else b) ≠ LF := by
    intro b
    split_ifs with h
    · exact ⟨by decide, by decide⟩
    · exact not_or.1 h
  constructor
  · rintro h
    obtain ⟨b, -, hb⟩ := List.mem_map.1 h
    exact (hplain b).1 hb
  · rintro h
    obtain ⟨b, -, hb⟩ := List.mem_map.1 h
    exact (hplain b).2 hb

/-- The lines of the event name: one, or none for the default type. -/
def nameLines (name : Bytes) : List Bytes :=
  if name.isEmpty then []
  else [kEventFieldPrefix ++ name.map fun b => if b = CR ∨ b = LF then space else b]

theorem buildEventFrame_eq (name data : Bytes) : buildEventFrame name data =
    (nameLines name ++ (dataLines data).map (kDataFieldPrefix ++ ·) ++ [[]]).flatMap
      (· ++ [LF]) := by
  have hdata : ∀ lines : List Bytes, (lines.map (kDataFieldPrefix ++ ·)).flatMap (· ++ [LF]) =
      lines.flatMap fun line => kDataFieldPrefix ++ line ++ [LF] := fun lines =>
    List.flatMap_map _ _ _
  rw [buildEventFrame, appendDataLines, List.flatMap_append, List.flatMap_append, hdata, nameLines]
  cases name.isEmpty with
  | true => simp
  | false => simp [appendEventName]

theorem frame_plain (name data : Bytes) :
    ∀ line ∈ nameLines name ++ (dataLines data).map (kDataFieldPrefix ++ ·) ++ [[]],
      CR ∉ line ∧ LF ∉ line := by
  have hevent : CR ∉ kEventFieldPrefix ∧ LF ∉ kEventFieldPrefix := by decide +kernel
  have hdata : CR ∉ kDataFieldPrefix ∧ LF ∉ kDataFieldPrefix := by decide +kernel
  intro line hline
  rcases List.mem_append.1 hline with hline | hline
  · rcases List.mem_append.1 hline with hline | hline
    · unfold nameLines at hline
      split_ifs at hline
      · cases hline
      · obtain ⟨hcr, hlf⟩ := sanitized_plain name
        rw [List.mem_singleton.1 hline, List.mem_append, List.mem_append, not_or, not_or]
        exact ⟨⟨hevent.1, hcr⟩, hevent.2, hlf⟩
    · obtain ⟨part, hpart, rfl⟩ := List.mem_map.1 hline
      obtain ⟨hcr, hlf⟩ := dataLines_plain hpart
      rw [List.mem_append, List.mem_append, not_or, not_or]
      exact ⟨⟨hdata.1, hcr⟩, hdata.2, hlf⟩
  · rw [List.mem_singleton.1 hline]
    exact ⟨nofun, nofun⟩

/-- The event with the fields that the parser has read. -/
theorem dispatch_event (payload : Bytes) (hdata : s.data = payload ++ [LF]) :
    s.dispatch = { s with
      data := []
      eventType := []
      events := s.events ++ [{
        type := if s.eventType = [] then kDefaultType else s.eventType
        data := payload
        lastEventId := s.lastEventId }] } := by
  rw [dispatch, if_neg (by rw [hdata]; simp), hdata]
  simp

theorem feed_buildEventFrame (hs : s.Rests) (name data : Bytes) :
    s.feed (buildEventFrame name data) =
      { s with events := s.events ++ (StreamFrame.event name data).meant.toList } := by
  have hname : (nameLines name).foldl processLine s = { s with
      eventType := name.map fun b => if b = CR ∨ b = LF then space else b } := by
    unfold nameLines
    split_ifs with hempty
    · obtain rfl := List.isEmpty_iff.1 hempty
      show s = { s with eventType := [] }
      rw [← hs.eventType]
    · exact processLine_event _
  rw [buildEventFrame_eq, feed_lines hs.toAtLineStart (frame_plain name data), List.foldl_append,
    List.foldl_append, hname, foldl_processLine_data, flatMap_dataLines]
  show dispatch _ = _
  rw [dispatch_event (normalizeBreaks data) (by simp [hs.data])]
  simp [StreamFrame.meant, hs.data, hs.eventType, hs.lastEventId]

theorem feed_buildRetryFrame (hs : s.Rests) (retryHint : ℕ) : s.feed (buildRetryFrame retryHint) =
    { s with reconnectionTime := some (retryHint * kMillisecondsPerSecond) } := by
  have hframe : buildRetryFrame retryHint =
      [kRetryFieldPrefix ++ toChars (retryHint * kMillisecondsPerSecond), []].flatMap
        (· ++ [LF]) := by
    simp [buildRetryFrame]
  have hdigits : ∀ b ∈ toChars (retryHint * kMillisecondsPerSecond), b ≠ CR ∧ b ≠ LF := by
    intro b hb
    have hdigit := isDecimalDigit_of_mem_toChars hb
    constructor <;> rintro rfl <;> exact absurd hdigit (by decide)
  have hplain : ∀ line ∈ [kRetryFieldPrefix ++ toChars (retryHint * kMillisecondsPerSecond), []],
      CR ∉ line ∧ LF ∉ line := by
    have hfield : CR ∉ kRetryFieldPrefix ∧ LF ∉ kRetryFieldPrefix := by decide +kernel
    simp only [List.forall_mem_cons, List.mem_append, not_or]
    exact ⟨⟨⟨hfield.1, fun h => (hdigits CR h).1 rfl⟩, hfield.2, fun h => (hdigits LF h).2 rfl⟩,
      ⟨nofun, nofun⟩, nofun⟩
  rw [hframe, feed_lines hs.toAtLineStart hplain, List.foldl_cons, processLine_retry]
  show dispatch _ = _
  rw [dispatch, if_pos hs.data, ← hs.eventType]

theorem feed_heartbeatFrame (hs : s.Rests) : s.feed kHeartbeatFrame = s := by
  have hframe : kHeartbeatFrame = [ascii ": heartbeat", []].flatMap (· ++ [LF]) := by decide +kernel
  rw [hframe, feed_lines hs.toAtLineStart (by decide +kernel)]
  show dispatch s = s
  rw [dispatch, if_pos hs.data, ← hs.eventType]

/-- A frame leaves the parser between two events, with its event behind it. -/
theorem feed_frame (hs : s.Rests) (frame : StreamFrame) : (s.feed frame.text).Rests ∧
    (s.feed frame.text).events = s.events ++ frame.meant.toList := by
  cases frame with
  | event name data =>
    show (s.feed (buildEventFrame name data)).Rests ∧ _
    rw [StreamFrame.text, feed_buildEventFrame hs]
    exact ⟨⟨⟨hs.line, hs.afterCr⟩, hs.data, hs.eventType, hs.lastEventId⟩, rfl⟩
  | retry retryHint =>
    rw [StreamFrame.text, feed_buildRetryFrame hs]
    exact ⟨⟨⟨hs.line, hs.afterCr⟩, hs.data, hs.eventType, hs.lastEventId⟩, by simp [StreamFrame.meant]⟩
  | heartbeat =>
    rw [StreamFrame.text, feed_heartbeatFrame hs]
    exact ⟨hs, by simp [StreamFrame.meant]⟩

theorem feed_frames (hs : s.Rests) (frames : List StreamFrame) :
    (s.feed (frames.flatMap StreamFrame.text)).Rests ∧
      (s.feed (frames.flatMap StreamFrame.text)).events =
        s.events ++ frames.filterMap StreamFrame.meant := by
  induction frames generalizing s with
  | nil => exact ⟨hs, by simp [feed]⟩
  | cons frame frames ih =>
    obtain ⟨hnext, hevents⟩ := feed_frame hs frame
    obtain ⟨hrests, hrest⟩ := ih hnext
    rw [List.flatMap_cons, feed_append]
    refine ⟨hrests, ?_⟩
    rw [hrest, hevents, List.append_assoc]
    cases hmeant : frame.meant <;> simp [hmeant]

end EventSource

/-- **Events are read as they were published.**  The frame of an event is read as one event of its
type, with its data, and sets nothing else; and frames of events, with retry and heartbeat frames
anywhere between them, are read as those events, in order. -/
theorem event_stream_round_trip :
    (∀ name data : Bytes, ({} : EventSource).feed (buildEventFrame name data) = {
      events := [{
        type := if name = [] then EventSource.kDefaultType
          else name.map fun b => if b = CR ∨ b = LF then space else b
        data := normalizeBreaks data
        lastEventId := [] }] }) ∧
    ∀ frames : List StreamFrame,
      (({} : EventSource).feed (frames.flatMap StreamFrame.text)).events =
        frames.filterMap StreamFrame.meant ∧
      (({} : EventSource).feed (frames.flatMap StreamFrame.text)).lastEventId = [] := by
  refine ⟨?_, ?_⟩
  · intro name data
    exact EventSource.feed_buildEventFrame EventSource.rests_empty name data
  · intro frames
    obtain ⟨hrests, hevents⟩ := EventSource.feed_frames EventSource.rests_empty frames
    exact ⟨hevents, hrests.lastEventId⟩

end ErikslundHttp
