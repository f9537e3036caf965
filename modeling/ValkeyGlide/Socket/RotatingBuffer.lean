import ValkeyGlide.Foundation.LengthPrefixed
import ValkeyGlide.Foundation.Varint
import ValkeyGlide.Protocol.Value

/-!
# Reading requests from the socket

Requests arrive on the socket of a language wrapper, each after its length
(`rotating_buffer.rs`, `socket_listener.rs`).  A read may end anywhere; what does not make up
a request is kept for the next read.  The main result is that the requests do not depend on
where the reads end.
-/

namespace ValkeyGlide.Socket

open Foundation Protocol

variable {Request : Type}

abbrev RequestFraming (Request : Type) := Framing UInt8 Request IoErrorKind

structure RotatingBuffer where
  backingBuffer : Bytes
  deriving DecidableEq, Repr

namespace RotatingBuffer

def new : RotatingBuffer := ⟨[]⟩

def append (rotating : RotatingBuffer) (chunk : Bytes) : RotatingBuffer :=
  ⟨rotating.backingBuffer ++ chunk⟩

section Requests

variable (framing : RequestFraming Request)

/--
The requests from `prevPosition` on, after `results`, and the position of what is left.
The buffer has at most as many requests as bytes.
-/
def parseFrom (buffer : Bytes) :
    Nat → Nat → List Request → Except IoErrorKind (List Request × Nat)
  | 0, prevPosition, results => .ok (results, prevPosition)
  | fuel + 1, prevPosition, results =>
    if prevPosition < buffer.length then
      match framing.decodeLength (buffer.drop prevPosition) with
      | some (requestLen, bytesRead) =>
        let startPos := prevPosition + bytesRead
        if buffer.length < startPos + requestLen then .ok (results, prevPosition)
        else
          match framing.parse ((buffer.drop startPos).take requestLen) with
          | .ok request =>
            parseFrom buffer fuel (prevPosition + (requestLen + bytesRead))
              (results ++ [request])
          | .error error => .error error
      | none => .ok (results, prevPosition)
    else .ok (results, prevPosition)

/-- The buffer is taken out first, so that nothing is left after an error. -/
def getRequests (rotating : RotatingBuffer) : RotatingBuffer × Except IoErrorKind (List Request) :=
  let buffer := rotating.backingBuffer
  match parseFrom framing buffer buffer.length 0 [] with
  | .error error => (⟨[]⟩, .error error)
  | .ok (results, prevPosition) =>
    if prevPosition ≠ buffer.length then (⟨buffer.drop prevPosition⟩, .ok results)
    else (⟨[]⟩, .ok results)

end Requests

/-! ## Parsing a part of the stream -/

section Parsing

variable {framing : RequestFraming Request} {buffer : Bytes}

variable {prevPosition : Nat} {requests : List Request} {request : Request}

theorem parseFrom_of_short {more : List Request}
    (hpart : buffer.drop prevPosition <+: framing.stream (request :: more))
    (hshort : (buffer.drop prevPosition).length < (framing.frame request).length) (fuel : Nat)
    (results : List Request) :
    parseFrom framing buffer fuel prevPosition results = .ok (results, prevPosition) := by
  cases fuel with
  | zero => rfl
  | succ fuel =>
    rw [parseFrom]
    split_ifs with hposition
    · rcases Framing.decodeLength_of_short hpart hshort with
        hnone | ⟨requestLen, bytesRead, hsome, hexceeds⟩
      · rw [hnone]
      · have hend : buffer.length < prevPosition + bytesRead + requestLen := by
          rw [List.length_drop] at hexceeds
          omega
        rw [hsome]
        exact if_pos hend
    · rfl

theorem parseFrom_of_long {rest : Bytes}
    (hbuffer : buffer.drop prevPosition = framing.frame request ++ rest) (fuel : Nat)
    (results : List Request) :
    parseFrom framing buffer (fuel + 1) prevPosition results =
      parseFrom framing buffer fuel (prevPosition + (framing.frame request).length)
        (results ++ [request]) := by
  have hframe : (framing.frame request).length =
      (framing.encode request).length + (framing.lengthOf request).length := by
    rw [Framing.frame, List.length_append, Nat.add_comm]
  have hlength := congrArg List.length hbuffer
  rw [List.length_drop, List.length_append] at hlength
  have hpos := framing.length_frame_pos request
  have hbody : (buffer.drop (prevPosition + (framing.lengthOf request).length)).take
      (framing.encode request).length = framing.encode request := by
    rw [← List.drop_drop, hbuffer, Framing.frame, List.append_assoc, List.drop_left, List.take_left]
  rw [parseFrom, if_pos (by omega), hbuffer, Framing.decodeLength_frame]
  dsimp only
  rw [if_neg (by omega), hbody, framing.parse_encode, hframe]

def Parses (framing : RequestFraming Request) (buffer : Bytes) (requests : List Request)
    (prevPosition : Nat) (results : List Request)
    (parsed : Except IoErrorKind (List Request × Nat)) : Prop :=
  ∃ done later rest, requests = done ++ later ∧
    buffer.drop prevPosition = framing.stream done ++ rest ∧ framing.Incomplete rest later ∧
    parsed = .ok (results ++ done, prevPosition + (framing.stream done).length)

theorem parses_nothing (hincomplete : framing.Incomplete (buffer.drop prevPosition) requests)
    (results : List Request) :
    Parses framing buffer requests prevPosition results (.ok (results, prevPosition)) :=
  ⟨[], requests, _, rfl, rfl, hincomplete, by rw [List.append_nil]; rfl⟩

theorem parseFrom_stream {fuel : Nat} (hpart : buffer.drop prevPosition <+: framing.stream requests)
    (hfuel : buffer.length ≤ prevPosition + fuel) (results : List Request) :
    Parses framing buffer requests prevPosition results
      (parseFrom framing buffer fuel prevPosition results) := by
  induction requests generalizing prevPosition fuel results with
  | nil =>
    have hend : buffer.length ≤ prevPosition := by
      rw [← Nat.sub_eq_zero_iff_le, ← List.length_drop, List.prefix_nil.mp hpart]
      rfl
    have hparse : parseFrom framing buffer fuel prevPosition results =
        .ok (results, prevPosition) := by
      cases fuel with
      | zero => rfl
      | succ fuel => rw [parseFrom, if_neg (Nat.not_lt_of_le hend)]
    rw [hparse]
    exact parses_nothing ⟨hpart, fun _ hmem => absurd hmem (Option.not_mem_none _)⟩ results
  | cons request more ih =>
    rcases Nat.lt_or_ge (buffer.drop prevPosition).length (framing.frame request).length with
      hshort | hlong
    · rw [parseFrom_of_short hpart hshort]
      refine parses_nothing ⟨hpart, fun first hfirst => ?_⟩ results
      rwa [← Option.some.inj hfirst]
    · obtain ⟨tail, hbuffer, htail⟩ := Framing.split_of_long hpart hlong
      have hpos := framing.length_frame_pos request
      have hlength := congrArg List.length hbuffer
      rw [List.length_drop, List.length_append] at hlength
      -- a request has at least the byte of its length, so that there is fuel for it
      obtain ⟨left, rfl⟩ : ∃ left, fuel = left + 1 := ⟨fuel - 1, by omega⟩
      have hnext : buffer.drop (prevPosition + (framing.frame request).length) = tail := by
        rw [← List.drop_drop, hbuffer, List.drop_left]
      obtain ⟨done, later, rest, rfl, hdone, hincomplete, hparse⟩ :=
        ih (hnext ▸ htail) (show buffer.length ≤ _ + left by omega) (results ++ [request])
      refine ⟨request :: done, later, rest, rfl, ?_, hincomplete, ?_⟩
      · rw [hbuffer, ← hnext, hdone, Framing.stream_cons, List.append_assoc]
      · rw [parseFrom_of_long hbuffer, hparse, Framing.stream_cons, List.length_append,
          List.append_assoc, List.singleton_append, Nat.add_assoc]

theorem getRequests_stream {rotating : RotatingBuffer}
    (hpart : rotating.backingBuffer <+: framing.stream requests) :
    ∃ done later rest, requests = done ++ later ∧
      rotating.backingBuffer = framing.stream done ++ rest ∧ framing.Incomplete rest later ∧
      rotating.getRequests framing = (⟨rest⟩, .ok done) := by
  obtain ⟨buffer⟩ := rotating
  obtain ⟨done, later, rest, rfl, hbuffer, hincomplete, hparse⟩ :=
    parseFrom_stream (show buffer.drop 0 <+: _ from hpart) (Nat.le_add_left buffer.length 0) []
  refine ⟨done, later, rest, rfl, hbuffer, hincomplete, ?_⟩
  rw [List.drop_zero] at hbuffer
  rw [Nat.zero_add] at hparse
  simp only [getRequests, hparse, List.nil_append]
  split_ifs with hend
  · rw [hbuffer, List.drop_left]
  · obtain rfl : rest = [] := by
      have hlength := congrArg List.length hbuffer
      rw [List.length_append] at hlength
      exact List.length_eq_zero_iff.mp (by omega)
    rfl

end Parsing

end RotatingBuffer

/-! ## One read after the other -/

structure Reading (Request : Type) where
  rotating : RotatingBuffer
  returned : List (Except IoErrorKind (List Request))

section Reads

variable (framing : RequestFraming Request)

def Reading.step (reading : Reading Request) (chunk : Bytes) : Reading Request :=
  let (rotating, result) := (reading.rotating.append chunk).getRequests framing
  ⟨rotating, reading.returned ++ [result]⟩

def readAll (reads : List Bytes) : Reading Request :=
  reads.foldl (Reading.step framing) ⟨.new, []⟩

variable {framing} {lists : List (List Request)} {reading : Reading Request}
  {requests : List Request}

/-- What has been returned is what was read, up to the start of one request. -/
structure Reading.Follows (framing : RequestFraming Request) (requests : List Request)
    (read : Bytes) (reading : Reading Request) (lists : List (List Request))
    (later : List Request) : Prop where
  returned : reading.returned = lists.map .ok
  requests : requests = lists.flatten ++ later
  read : read = framing.stream lists.flatten ++ reading.rotating.backingBuffer
  incomplete : framing.Incomplete reading.rotating.backingBuffer later

theorem Reading.Follows.step {later : List Request} {read chunk : Bytes}
    (hfollows : reading.Follows framing requests read lists later)
    (hpart : read ++ chunk <+: framing.stream requests) :
    ∃ done rest, (reading.step framing chunk).Follows framing requests (read ++ chunk)
      (lists ++ [done]) rest := by
  rw [hfollows.requests, hfollows.read, Framing.stream_append, List.append_assoc,
    List.prefix_append_right_inj] at hpart
  obtain ⟨done, rest, left, hlater, hbuffer, hincomplete, hget⟩ :=
    RotatingBuffer.getRequests_stream
      (show (reading.rotating.append chunk).backingBuffer <+: _ from hpart)
  refine ⟨done, rest, ?_⟩
  unfold Reading.step
  rw [hget]
  constructor
  · rw [hfollows.returned, List.map_append]
    rfl
  · rw [hfollows.requests, hlater]
    simp
  · rw [hfollows.read, List.append_assoc]
    show _ ++ (reading.rotating.append chunk).backingBuffer = _
    rw [hbuffer]
    simp [Framing.stream_append]
  · exact hincomplete

theorem Reading.Follows.reads {later : List Request} {read : Bytes}
    (hfollows : reading.Follows framing requests read lists later) (reads : List Bytes)
    (hpart : read ++ reads.flatten <+: framing.stream requests) :
    ∃ lists later, (reads.foldl (Reading.step framing) reading).Follows framing requests
      (read ++ reads.flatten) lists later := by
  induction reads generalizing read reading lists later with
  | nil => exact ⟨lists, later, by rwa [List.flatten_nil, List.append_nil]⟩
  | cons chunk rest ih =>
    rw [List.flatten_cons, ← List.append_assoc] at hpart ⊢
    obtain ⟨done, left, hstep⟩ :=
      hfollows.step ((List.prefix_append _ rest.flatten).trans hpart)
    exact ih hstep hpart

/--
However the bytes of some requests are cut into reads, every call of `getRequests` succeeds.
The requests returned so far are the first ones, in their order, and all of them when all
bytes have been read.
-/
theorem readAll_returns_requests (framing : RequestFraming Request) (requests : List Request)
    {reads : List Bytes} (hreads : reads.flatten <+: framing.stream requests) :
    ∃ lists : List (List Request), (readAll framing reads).returned = lists.map .ok ∧
      lists.flatten <+: requests ∧
      (reads.flatten = framing.stream requests → lists.flatten = requests) := by
  have hstart : Reading.Follows framing requests [] ⟨.new, []⟩ [] requests :=
    ⟨rfl, rfl, rfl, Framing.incomplete_nil requests⟩
  obtain ⟨lists, later, hfollows⟩ := hstart.reads reads hreads
  refine ⟨lists, hfollows.returned, ⟨later, hfollows.requests.symm⟩, fun hall => ?_⟩
  have hread := hfollows.read
  rw [List.nil_append, hall, hfollows.requests] at hread
  rw [hfollows.requests, hfollows.incomplete.eq_nil hread.symm, List.append_nil]

end Reads

def u32Max : Nat := 4294967295

def bytesFraming : RequestFraming { request : Bytes // request.length ≤ u32Max } where
  limit := u32Max
  encodeLength := encodeVarint
  decodeLength data := (decodeVarint data).filter fun decoded => decoded.1 ≤ u32Max
  encode := Subtype.val
  parse data := if hlength : data.length ≤ u32Max then .ok ⟨data, hlength⟩ else .error .other
  encodeLength_ne_nil number _ := encodeVarint_ne_nil number
  decodeLength_encodeLength number hnumber rest := by
    rw [decodeVarint_encodeVarint]
    simp [Option.filter, hnumber]
  decodeLength_incomplete number _ start hpart hne := by
    rw [decodeVarint_incomplete number hpart hne, Option.filter_none]
  length_encode request := request.property
  parse_encode request := dif_pos request.property

theorem request_cut_in_its_length_returned :
    let request : { request : Bytes // request.length ≤ u32Max } :=
      ⟨List.replicate 200 7, by rw [List.length_replicate]; decide⟩
    let reads : List Bytes := [[200], 1 :: List.replicate 150 7, List.replicate 50 7]
    ∃ lists : List (List { request : Bytes // request.length ≤ u32Max }),
      (readAll bytesFraming reads).returned = lists.map .ok ∧ lists.flatten = [request] := by
  intro request reads
  have hreads : reads.flatten = bytesFraming.stream [request] := by
    have hlength : encodeVarint 200 = [200, 1] := by
      rw [encodeVarint, encodeVarint]
      rfl
    show _ = encodeVarint 200 ++ List.replicate 200 7 ++ []
    rw [hlength]
    rfl
  have hpart : reads.flatten <+: bytesFraming.stream [request] := by rw [hreads]
  obtain ⟨lists, hreturned, -, hall⟩ := readAll_returns_requests bytesFraming [request] hpart
  exact ⟨lists, hreturned, hall hreads⟩

/-! ## The listener -/

inductive ClosingReason where
  | readSocketClosed
  | unhandledError (error : RedisError)
  deriving DecidableEq, Repr

inductive PipeListeningResult (Request : Type) where
  | closed (reason : ClosingReason)
  | receivedValues (values : List Request)

/--
What the socket does: waiting for it fails, it gives some bytes (none when it is closed), it
has nothing yet or is interrupted, or reading from it fails.
-/
inductive SocketRead where
  | unreadable (error : IoErrorKind)
  | bytes (chunk : Bytes)
  | again
  | failed (error : IoErrorKind)
  deriving DecidableEq, Repr

def SocketRead.isOpen : SocketRead → Bool
  | bytes chunk => chunk ≠ []
  | again => true
  | _ => false

def arrived (events : List SocketRead) : Bytes :=
  events.flatMap fun event =>
    match event with
    | .bytes chunk => chunk
    | _ => []

section Listener

variable (framing : RequestFraming Request)

/-- The values, the buffer afterwards and what the socket does later, if the call returns. -/
def nextValues : RotatingBuffer → List SocketRead →
    Option (PipeListeningResult Request × RotatingBuffer × List SocketRead)
  | _, [] => none
  | rotating, .unreadable error :: rest =>
    some (.closed (.unhandledError (.ioError error)), rotating, rest)
  | rotating, .bytes chunk :: rest =>
    if chunk = [] then some (.closed .readSocketClosed, rotating, rest)
    else
      match (rotating.append chunk).getRequests framing with
      | (next, .ok requests) =>
        if requests ≠ [] then some (.receivedValues requests, next, rest)
        else nextValues next rest
      | (next, .error error) => some (.closed (.unhandledError (.ioError error)), next, rest)
  | rotating, .again :: rest => nextValues rotating rest
  | rotating, .failed error :: rest =>
    some (.closed (.unhandledError (.ioError error)), rotating, rest)

def listen : Nat → RotatingBuffer → List SocketRead → List (List Request)
  | 0, _, _ => []
  | fuel + 1, rotating, events =>
    match nextValues framing rotating events with
    | some (.receivedValues values, next, later) => values :: listen fuel next later
    | _ => []

variable {framing} {requests : List Request}

def Continues (framing : RequestFraming Request) (requests : List Request)
    (rotating : RotatingBuffer) (events : List SocketRead) : Prop :=
  (nextValues framing rotating events = none ∧
    framing.Incomplete (rotating.backingBuffer ++ arrived events) requests) ∨
  ∃ values later next rest,
    nextValues framing rotating events = some (.receivedValues values, next, rest) ∧
    requests = values ++ later ∧ framing.Incomplete next.backingBuffer later ∧
    (∃ taken, taken ≠ [] ∧ events = taken ++ rest) ∧
    rotating.backingBuffer ++ arrived events =
      framing.stream values ++ (next.backingBuffer ++ arrived rest)

variable {rotating : RotatingBuffer} {events : List SocketRead}

theorem Continues.cons {next : RotatingBuffer} {event : SocketRead} {rest : List SocketRead}
    (hcontinues : Continues framing requests next rest)
    (hcall : nextValues framing rotating (event :: rest) = nextValues framing next rest)
    (hbytes : rotating.backingBuffer ++ arrived (event :: rest) =
      next.backingBuffer ++ arrived rest) :
    Continues framing requests rotating (event :: rest) := by
  unfold Continues
  rw [hcall, hbytes]
  rcases hcontinues with hwaits | ⟨values, later, last, left, hvalues, hlater, hincomplete,
    ⟨taken, -, rfl⟩, hread⟩
  · exact .inl hwaits
  · exact .inr ⟨values, later, last, left, hvalues, hlater, hincomplete,
      ⟨event :: taken, List.cons_ne_nil _ _, rfl⟩, hread⟩

theorem nextValues_continues (hincomplete : framing.Incomplete rotating.backingBuffer requests)
    (hopen : ∀ event ∈ events, event.isOpen)
    (hpart : rotating.backingBuffer ++ arrived events <+: framing.stream requests) :
    Continues framing requests rotating events := by
  induction events generalizing rotating with
  | nil => exact .inl ⟨rfl, by rwa [arrived, List.flatMap_nil, List.append_nil]⟩
  | cons event rest ih =>
    obtain ⟨hevent, hrest⟩ := List.forall_mem_cons.mp hopen
    cases event with
    | unreadable error => contradiction
    | failed error => contradiction
    | again => exact (ih hincomplete hrest hpart).cons rfl rfl
    | bytes chunk =>
      have hchunk : chunk ≠ [] := of_decide_eq_true hevent
      have harrived : rotating.backingBuffer ++ arrived (.bytes chunk :: rest) =
          (rotating.append chunk).backingBuffer ++ arrived rest :=
        (List.append_assoc ..).symm
      rw [harrived] at hpart
      obtain ⟨done, later, left, rfl, hbuffer, hleft, hget⟩ :=
        RotatingBuffer.getRequests_stream ((List.prefix_append _ _).trans hpart)
      by_cases hdone : done = []
      · subst hdone
        have hkept : (rotating.append chunk).backingBuffer = left := hbuffer
        rw [hkept] at hpart harrived
        refine (ih (show framing.Incomplete (RotatingBuffer.mk left).backingBuffer _ from hleft)
          hrest hpart).cons ?_ harrived
        rw [nextValues, if_neg hchunk, hget]
        exact if_neg (not_not_intro rfl)
      · refine .inr ⟨done, later, ⟨left⟩, rest, ?_, rfl, hleft,
          ⟨[.bytes chunk], List.cons_ne_nil _ _, rfl⟩, ?_⟩
        · rw [nextValues, if_neg hchunk, hget]
          exact if_pos hdone
        · rw [harrived, hbuffer, List.append_assoc]

theorem listen_from {fuel : Nat} (hfuel : events.length < fuel)
    (hincomplete : framing.Incomplete rotating.backingBuffer requests)
    (hopen : ∀ event ∈ events, event.isOpen)
    (hpart : rotating.backingBuffer ++ arrived events <+: framing.stream requests) :
    ∃ later left, requests = (listen framing fuel rotating events).flatten ++ later ∧
      framing.Incomplete left later ∧
      rotating.backingBuffer ++ arrived events =
        framing.stream (listen framing fuel rotating events).flatten ++ left := by
  induction fuel generalizing rotating events requests with
  | zero => exact absurd hfuel (Nat.not_lt_zero _)
  | succ fuel ih =>
    rcases nextValues_continues hincomplete hopen hpart with ⟨hcall, hleft⟩ |
      ⟨values, later, next, rest, hcall, rfl, hnext, ⟨taken, htaken, rfl⟩, hread⟩
    · simp only [listen, hcall]
      exact ⟨requests, _, rfl, hleft, rfl⟩
    · have hpos := List.length_pos_iff.mpr htaken
      rw [List.length_append] at hfuel
      rw [hread, Framing.stream_append, List.prefix_append_right_inj] at hpart
      obtain ⟨last, left, hlater, hleft, hrest⟩ := ih (by omega) hnext
        (fun event hmem => hopen event (List.mem_append_right _ hmem)) hpart
      simp only [listen, hcall, List.flatten_cons, List.append_assoc, Framing.stream_append]
      exact ⟨last, left, congrArg _ hlater, hleft, by rw [hread, hrest]⟩

/--
While the socket is open and its bytes are those of some requests, the values that successive
calls of `nextValues` return are the first requests, and all of them when all bytes have come.
-/
theorem listen_flatten (framing : RequestFraming Request) (requests : List Request)
    (hopen : ∀ event ∈ events, event.isOpen)
    (harrived : arrived events <+: framing.stream requests) :
    (listen framing (events.length + 1) .new events).flatten <+: requests ∧
    (arrived events = framing.stream requests →
      (listen framing (events.length + 1) .new events).flatten = requests) := by
  obtain ⟨later, left, hrequests, hleft, hread⟩ := listen_from (Nat.lt_add_one events.length)
    (show framing.Incomplete RotatingBuffer.new.backingBuffer requests from
      Framing.incomplete_nil requests) hopen harrived
  refine ⟨⟨later, hrequests.symm⟩, fun hall => ?_⟩
  have hnone : later = [] :=
    hleft.eq_nil (hread.symm.trans (hall.trans (congrArg framing.stream hrequests)))
  rw [hnone, List.append_nil] at hrequests
  exact hrequests.symm

theorem request_waited_for_returned :
    let request : { request : Bytes // request.length ≤ u32Max } := ⟨[7], by decide⟩
    (listen bytesFraming 4 .new [.again, .bytes [1], .bytes [7]]).flatten = [request] := by
  intro request
  have harrived : arrived [.again, .bytes [1], .bytes [7]] = bytesFraming.stream [request] := by
    show _ = encodeVarint 1 ++ [7] ++ []
    rw [encodeVarint]
    rfl
  exact (listen_flatten bytesFraming [request] (by decide) (by rw [harrived])).2 harrived

end Listener

end ValkeyGlide.Socket
