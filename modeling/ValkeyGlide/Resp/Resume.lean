import ValkeyGlide.Resp.Parser

/-!
# The scan and the arrival of bytes

What the scan reads of a value is decided by the bytes up to its end, so neither
bytes that arrive later nor bytes cut off behind the value change it.  `ElementAt`
says once what a successful read is.
-/

namespace ValkeyGlide.Resp

open Foundation Protocol

/-! ## Lines -/

variable {bytes other buf : Bytes} {rel next : Nat}

theorem findCrlf_le (hfind : findCrlf bytes = some rel) : rel + 2 ≤ bytes.length := by
  induction bytes generalizing rel with
  | nil => simp [findCrlf] at hfind
  | cons byte rest ih =>
    rw [findCrlf] at hfind
    split at hfind
    · rename_i hhere
      obtain rfl : 0 = rel := by simpa using hfind
      obtain ⟨next, hrest⟩ := List.head?_eq_some_iff.mp hhere.2
      simp [hrest]
    · obtain ⟨later, hlater, rfl⟩ := Option.map_eq_some_iff.mp hfind
      have hle := ih hlater
      simp only [List.length_cons]
      omega

theorem findCrlf_congr (hfind : findCrlf bytes = some rel)
    (hagree : other.take (rel + 2) = bytes.take (rel + 2)) : findCrlf other = some rel := by
  induction bytes generalizing other rel with
  | nil => simp [findCrlf] at hfind
  | cons byte rest ih =>
    cases other with
    | nil => simp at hagree
    | cons first tail =>
      rw [List.take_succ_cons, List.take_succ_cons] at hagree
      obtain ⟨rfl, htail⟩ := List.cons.inj hagree
      have hhead : tail.head? = rest.head? := by
        simpa [List.head?_take] using congrArg List.head? htail
      rw [findCrlf, hhead]
      rw [findCrlf] at hfind
      split at hfind
      · rename_i hhere
        rw [if_pos hhere]
        exact hfind
      · rename_i hnot
        obtain ⟨later, hlater, rfl⟩ := Option.map_eq_some_iff.mp hfind
        rw [if_neg hnot, ih hlater htail]
        rfl

theorem findLine_congr {pos lineEnd : Nat} (hfind : findLine buf pos = some (lineEnd, next))
    (hagree : other.take next = buf.take next) : findLine other pos = some (lineEnd, next) := by
  obtain ⟨rel, hrel, hline⟩ := Option.map_eq_some_iff.mp hfind
  cases hline
  have hdrop : (other.drop pos).take (rel + 2) = (buf.drop pos).take (rel + 2) := by
    rw [List.take_drop, List.take_drop, ← Nat.add_assoc, hagree]
  rw [findLine, findCrlf_congr hrel hdrop]
  rfl

theorem findLine_bounds {pos lineEnd : Nat} (hfind : findLine buf pos = some (lineEnd, next)) :
    pos ≤ lineEnd ∧ next = lineEnd + 2 ∧ next ≤ buf.length := by
  obtain ⟨rel, hrel, hline⟩ := Option.map_eq_some_iff.mp hfind
  cases hline
  have hle := findCrlf_le hrel
  rw [List.length_drop] at hle
  omega

theorem take_of_agree {stop : Nat} (hle : stop ≤ next) (hagree : other.take next = buf.take next) :
    other.take stop = buf.take stop := by
  have htake := congrArg (List.take stop) hagree
  rwa [List.take_take, List.take_take, Nat.min_eq_left hle] at htake

theorem slice_congr {start stop : Nat} (hle : stop ≤ next)
    (hagree : other.take next = buf.take next) : slice other start stop = slice buf start stop := by
  rw [slice, slice, take_of_agree hle hagree]

theorem getElem?_congr {pos : Nat} (hlt : pos < next) (hagree : other.take next = buf.take next) :
    other[pos]? = buf[pos]? := by
  rw [← List.getElem?_take_of_lt hlt, hagree, List.getElem?_take_of_lt hlt]

/-! ## Elements -/

structure HeaderAt (env : TextParsers) (buf : Bytes) (pos : Nat) (type : ElementType)
    (next : Nat) (n : Int) : Prop where
  type : ∃ byte, buf[pos]? = some byte ∧ elementType byte = type
  line : ∃ lineEnd, findLine buf (pos + 1) = some (lineEnd, next) ∧
    lineInt env (slice buf (pos + 1) lineEnd) = .ok n

inductive ElementAt (env : TextParsers) (buf : Bytes) (depth pos : Nat) :
    Nat → Option Nat → Prop
  | scalar {byte type lineEnd next} (hbyte : buf[pos]? = some byte)
      (htype : elementType byte = .scalar type)
      (hline : findLine buf (pos + 1) = some (lineEnd, next)) :
      ElementAt env buf depth pos next none
  | noBlob {type next size} (hheader : HeaderAt env buf pos (.blob type) next size)
      (hnegative : size < 0) : ElementAt env buf depth pos next none
  | blob {type payloadStart size stop}
      (hheader : HeaderAt env buf pos (.blob type) payloadStart size) (hsize : ¬ size < 0)
      (hend : blobEnd env size payloadStart = .ok stop) (hstop : stop ≤ buf.length)
      (hcrlf : slice buf (stop - 2) stop = crlf) : ElementAt env buf depth pos stop none
  | noAggregate {type next n} (hheader : HeaderAt env buf pos (.aggregate type) next n)
      (hdepth : depth ≤ maxRecurseDepth) (hnegative : n < 0) :
      ElementAt env buf depth pos next none
  | aggregate {type next n count} (hheader : HeaderAt env buf pos (.aggregate type) next n)
      (hdepth : depth ≤ maxRecurseDepth) (hn : ¬ n < 0)
      (hcount : childCount env type n = .ok count) :
      ElementAt env buf depth pos next (some count)

section Elements

variable {env : TextParsers} {buf other : Bytes} {depth pos next payloadStart : Nat} {n size : Int}
  {type : ElementType} {count : Option Nat}

theorem HeaderAt.bounds (hheader : HeaderAt env buf pos type next n) :
    pos + 2 < next ∧ next ≤ buf.length := by
  obtain ⟨lineEnd, hline, -⟩ := hheader.line
  obtain ⟨hstart, hnext, hle⟩ := findLine_bounds hline
  omega

theorem HeaderAt.congr (hheader : HeaderAt env buf pos type next n)
    (hagree : other.take next = buf.take next) : HeaderAt env other pos type next n := by
  obtain ⟨⟨byte, hbyte, htype⟩, ⟨lineEnd, hline, hn⟩⟩ := hheader
  obtain ⟨hstart, hnext, -⟩ := findLine_bounds hline
  refine ⟨⟨byte, ?_, htype⟩, ⟨lineEnd, findLine_congr hline hagree, ?_⟩⟩
  · rw [getElem?_congr (by omega) hagree, hbyte]
  · rw [slice_congr (by omega) hagree, hn]

theorem blobEnd_eq {stop : Nat} (hend : blobEnd env size payloadStart = .ok stop) :
    stop = size.toNat + payloadStart + 2 := by
  rw [blobEnd] at hend
  split at hend
  · exact (Except.ok.inj hend).symm
  · contradiction

theorem ElementAt.bounds (helement : ElementAt env buf depth pos next count) :
    pos < next ∧ next ≤ buf.length := by
  cases helement with
  | scalar hbyte htype hline =>
    obtain ⟨hstart, hnext, hle⟩ := findLine_bounds hline
    omega
  | noBlob hheader hnegative | noAggregate hheader hdepth hnegative
  | aggregate hheader hdepth hn hcount =>
    obtain ⟨hlt, hle⟩ := hheader.bounds
    omega
  | blob hheader hsize hend hstop hcrlf =>
    obtain ⟨hlt, -⟩ := hheader.bounds
    have hstopEq := blobEnd_eq hend
    omega

theorem ElementAt.congr (helement : ElementAt env buf depth pos next count)
    (hagree : other.take next = buf.take next) : ElementAt env other depth pos next count := by
  obtain ⟨hpos, hlength⟩ := helement.bounds
  cases helement with
  | scalar hbyte htype hline =>
    exact .scalar ((getElem?_congr hpos hagree).trans hbyte) htype
      (findLine_congr hline hagree)
  | noBlob hheader hnegative => exact .noBlob (hheader.congr hagree) hnegative
  | blob hheader hsize hend hstop hcrlf =>
    have hstopEq := blobEnd_eq hend
    have hotherLength : next ≤ other.length := by
      have hlengths := congrArg List.length hagree
      rw [List.length_take, List.length_take, Nat.min_eq_left hlength] at hlengths
      omega
    exact .blob (hheader.congr (take_of_agree (by omega) hagree)) hsize hend hotherLength
      ((slice_congr (Nat.le_refl _) hagree).trans hcrlf)
  | noAggregate hheader hdepth hnegative =>
    exact .noAggregate (hheader.congr hagree) hdepth hnegative
  | aggregate hheader hdepth hn hcount =>
    exact .aggregate (hheader.congr hagree) hdepth hn hcount

theorem scanBlob_elementAt {type : BlobType}
    (hheader : HeaderAt env buf pos (.blob type) payloadStart size)
    (hscan : scanBlob env buf size payloadStart = .ok (some (next, count))) :
    ElementAt env buf depth pos next count := by
  revert hscan
  fun_cases scanBlob env buf size payloadStart with
  | case1 hnegative =>
    rintro ⟨⟩
    exact .noBlob hheader hnegative
  | case4 hsize stop hend hstop hcrlf =>
    rintro ⟨⟩
    exact .blob hheader hsize hend (Nat.not_lt.mp hstop) hcrlf
  | _ => simp

theorem scanAggregate_elementAt {type : AggregateType} {stop : Nat}
    (hheader : HeaderAt env buf pos (.aggregate type) next n) (hdepth : depth ≤ maxRecurseDepth)
    (hscan : scanAggregate env type n next = .ok (some (stop, count))) :
    ElementAt env buf depth pos stop count := by
  revert hscan
  fun_cases scanAggregate env type n next with
  | case1 hnegative =>
    rintro ⟨⟩
    exact .noAggregate hheader hdepth hnegative
  | case3 hn children hcount =>
    rintro ⟨⟩
    exact .aggregate hheader hdepth hn hcount
  | _ => simp

theorem elementAt_of_scanElement
    (hscan : scanElement env buf depth pos = .ok (some (next, count))) :
    ElementAt env buf depth pos next count := by
  revert hscan
  fun_cases scanElement env buf depth pos with
  | case3 byte hbyte type htype lineEnd start hline =>
    rintro ⟨⟩
    exact .scalar hbyte htype hline
  | case6 byte hbyte type htype lineEnd start hline size hsize =>
    exact scanBlob_elementAt ⟨⟨byte, hbyte, htype⟩, ⟨lineEnd, hline, hsize⟩⟩
  | case10 byte hbyte type htype hdepth lineEnd start hline n hn =>
    exact scanAggregate_elementAt ⟨⟨byte, hbyte, htype⟩, ⟨lineEnd, hline, hn⟩⟩
      (Nat.not_lt.mp hdepth)
  | _ => simp

theorem take_append_agree (more : Bytes) (hnext : next ≤ buf.length) :
    (buf ++ more).take next = buf.take next :=
  List.take_append_of_le_length hnext

theorem scanBlob_append (hscan : scanBlob env buf size payloadStart ≠ .ok none) (more : Bytes) :
    scanBlob env (buf ++ more) size payloadStart = scanBlob env buf size payloadStart := by
  revert hscan
  fun_cases scanBlob env buf size payloadStart with
  | case1 hnegative => simp [scanBlob, hnegative]
  | case2 hsize error hend => simp [scanBlob, hsize, hend]
  | case3 => simp
  | case4 hsize stop hend hstop hcrlf | case5 hsize stop hend hstop hcrlf =>
    have hlonger : ¬ (buf ++ more).length < stop := by
      rw [List.length_append]
      omega
    have hslice : slice (buf ++ more) (stop - 2) stop = slice buf (stop - 2) stop :=
      slice_congr (Nat.le_refl stop) (take_append_agree more (Nat.not_lt.mp hstop))
    intro _
    simp only [scanBlob, if_neg hsize, hend, if_neg hlonger, hslice, hcrlf, if_true, if_false]

theorem findLine_append {lineEnd : Nat} (hline : findLine buf pos = some (lineEnd, next))
    (more : Bytes) : findLine (buf ++ more) pos = some (lineEnd, next) ∧
      slice (buf ++ more) pos lineEnd = slice buf pos lineEnd := by
  obtain ⟨-, hnext, hle⟩ := findLine_bounds hline
  have hagree := take_append_agree more hle
  exact ⟨findLine_congr hline hagree, slice_congr (by omega) hagree⟩

theorem scanElement_append (hscan : scanElement env buf depth pos ≠ .ok none) (more : Bytes) :
    scanElement env (buf ++ more) depth pos = scanElement env buf depth pos := by
  have hsame : ∀ {byte}, buf[pos]? = some byte → (buf ++ more)[pos]? = some byte := fun hbyte =>
    (List.getElem?_append_left (List.getElem?_eq_some_iff.mp hbyte).1).trans hbyte
  revert hscan
  fun_cases scanElement env buf depth pos with
  | case1 | case2 | case4 | case8 => simp
  | case3 byte hbyte type htype lineEnd next hline =>
    simp [scanElement, hsame hbyte, htype, findLine_append hline more]
  | case5 byte hbyte type htype lineEnd next hline error hsize =>
    simp [scanElement, hsame hbyte, htype, findLine_append hline more, hsize]
  | case6 byte hbyte type htype lineEnd next hline size hsize =>
    intro hscan
    simp only [scanElement, hsame hbyte, htype, findLine_append hline more, hsize]
    exact scanBlob_append hscan more
  | case7 byte hbyte type htype hdepth => simp [scanElement, hsame hbyte, htype, hdepth]
  | case9 byte hbyte type htype hdepth lineEnd next hline error hn
  | case10 byte hbyte type htype hdepth lineEnd next hline n hn =>
    simp [scanElement, hsame hbyte, htype, hdepth, findLine_append hline more, hn]
  | case11 byte hbyte htype => simp [scanElement, hsame hbyte, htype]

end Elements

/-! ## The loop -/

section Loop

variable {env : TextParsers} {buf : Bytes} {scanned : Scanned}

theorem scanLoop_eq_scanResume {fuel : Nat} {state : ScanState}
    (hfuel : buf.length - state.pos < fuel) :
    scanLoop env buf fuel state = scanResume env buf state := by
  suffices hfuels : ∀ other, buf.length - state.pos < other →
      scanLoop env buf fuel state = scanLoop env buf other state from
    hfuels _ (Nat.lt_succ_self _)
  induction fuel generalizing state with
  | zero => exact absurd hfuel (Nat.not_lt_zero _)
  | succ fuel ih =>
    intro other hother
    cases other with
    | zero => exact absurd hother (Nat.not_lt_zero _)
    | succ other =>
      rw [scanLoop, scanLoop]
      cases state.stack.dropWhile (· == 0) with
      | nil => rfl
      | cons remaining below =>
        dsimp only
        cases hscan : scanElement env buf (below.length + 1) state.pos with
        | error error => rfl
        | ok element =>
          cases element with
          | none => rfl
          | some found =>
            obtain ⟨next, count⟩ := found
            obtain ⟨hlt, hle⟩ := (elementAt_of_scanElement hscan).bounds
            cases count <;> exact ih (by dsimp only; omega) other (by dsimp only; omega)

/-- One scan, round by round.  The innermost level that expects a value is the first. -/
inductive Scans (env : TextParsers) (buf : Bytes) : ScanState → Scanned → Prop
  | complete {state} (hclosed : state.stack.dropWhile (· == 0) = []) :
      Scans env buf state (.complete state.pos)
  | failed {state remaining below error}
      (hclosed : state.stack.dropWhile (· == 0) = remaining :: below)
      (hscan : scanElement env buf (below.length + 1) state.pos = .error error) :
      Scans env buf state (.failed error)
  | partly {state remaining below}
      (hclosed : state.stack.dropWhile (· == 0) = remaining :: below)
      (hscan : scanElement env buf (below.length + 1) state.pos = .ok none) :
      Scans env buf state (.partly ⟨state.pos, remaining :: below⟩)
  | element {state remaining below next count scanned}
      (hclosed : state.stack.dropWhile (· == 0) = remaining :: below)
      (hscan : scanElement env buf (below.length + 1) state.pos = .ok (some (next, count)))
      (hrest : Scans env buf ⟨next, count.toList ++ (remaining - 1) :: below⟩ scanned) :
      Scans env buf state scanned

theorem scanResume_element {state : ScanState} {remaining next : Nat} {below : List Nat}
    {count : Option Nat} (hclosed : state.stack.dropWhile (· == 0) = remaining :: below)
    (hscan : scanElement env buf (below.length + 1) state.pos = .ok (some (next, count))) :
    scanResume env buf state =
      scanResume env buf ⟨next, count.toList ++ (remaining - 1) :: below⟩ := by
  obtain ⟨hlt, hle⟩ := (elementAt_of_scanElement hscan).bounds
  rw [scanResume, scanLoop]
  simp only [hclosed, hscan]
  cases count with
  | none | some count => exact scanLoop_eq_scanResume (by dsimp only; omega)

theorem scans_scanResume (state : ScanState) :
    Scans env buf state (scanResume env buf state) := by
  induction hleft : buf.length - state.pos using Nat.strongRecOn generalizing state with
  | ind left ih =>
    cases hclosed : state.stack.dropWhile (· == 0) with
    | nil =>
      have hcomplete : scanResume env buf state = .complete state.pos := by
        simp [scanResume, scanLoop, hclosed]
      rw [hcomplete]
      exact .complete hclosed
    | cons remaining below =>
      cases hscan : scanElement env buf (below.length + 1) state.pos with
      | error error =>
        have hfailed : scanResume env buf state = .failed error := by
          simp [scanResume, scanLoop, hclosed, hscan]
        rw [hfailed]
        exact .failed hclosed hscan
      | ok element =>
        cases element with
        | none =>
          have hpartly : scanResume env buf state =
              .partly ⟨state.pos, remaining :: below⟩ := by
            simp [scanResume, scanLoop, hclosed, hscan]
          rw [hpartly]
          exact .partly hclosed hscan
        | some found =>
          obtain ⟨next, count⟩ := found
          obtain ⟨hlt, hle⟩ := (elementAt_of_scanElement hscan).bounds
          rw [scanResume_element hclosed hscan]
          exact .element hclosed hscan (ih (buf.length - next) (by omega) _ rfl)

theorem closed_ne_zero {stack below : List Nat} {remaining : Nat}
    (hclosed : stack.dropWhile (· == 0) = remaining :: below) : remaining ≠ 0 := by
  have hhead := List.head?_dropWhile_not (· == 0) stack
  simpa [hclosed] using hhead

def Scanned.resume (env : TextParsers) (buf : Bytes) : Scanned → Scanned
  | .partly state => scanResume env buf state
  | .complete stop => .complete stop
  | .failed error => .failed error

theorem Scans.append {state : ScanState} (hscans : Scans env buf state scanned) (more : Bytes) :
    scanResume env (buf ++ more) state = scanned.resume env (buf ++ more) := by
  induction hscans with
  | complete hclosed => simp [scanResume, scanLoop, hclosed, Scanned.resume]
  | failed hclosed hscan =>
    have happend := scanElement_append (hscan.trans_ne (by simp)) more
    simp [scanResume, scanLoop, hclosed, happend.trans hscan, Scanned.resume]
  | @partly state remaining below hclosed hscan =>
    -- closing the completed levels again changes nothing
    have hagain : (remaining :: below).dropWhile (· == 0) = remaining :: below := by
      simp [closed_ne_zero hclosed]
    simp [scanResume, scanLoop, hclosed, hagain, Scanned.resume]
  | element hclosed hscan hrest ih =>
    have happend := scanElement_append (hscan.trans_ne (by simp)) more
    rw [scanResume_element hclosed (happend.trans hscan)]
    exact ih

theorem Scans.complete_bounds {state : ScanState} {stop : Nat}
    (hscans : Scans env buf state scanned) (hcomplete : scanned = .complete stop) :
    state.stack.dropWhile (· == 0) = [] ∧ stop = state.pos ∨
      state.pos < stop ∧ stop ≤ buf.length := by
  induction hscans with
  | complete hclosed =>
    cases hcomplete
    exact .inl ⟨hclosed, rfl⟩
  | failed hclosed hscan | partly hclosed hscan => contradiction
  | element hclosed hscan hrest ih =>
    obtain ⟨hlt, hle⟩ := (elementAt_of_scanElement hscan).bounds
    rcases ih hcomplete with ⟨-, rfl⟩ | ⟨hstop, hlength⟩
    · exact .inr ⟨hlt, hle⟩
    · exact .inr ⟨Nat.lt_trans hlt hstop, hlength⟩

def ScanState.Expecting (state : ScanState) : Prop := state.stack.dropWhile (· == 0) ≠ []

theorem Scans.partly_expecting {state kept : ScanState} (hscans : Scans env buf state scanned)
    (hpartly : scanned = .partly kept) : kept.Expecting := by
  induction hscans with
  | complete hclosed | failed hclosed hscan => contradiction
  | partly hclosed hscan =>
    cases hpartly
    simp [ScanState.Expecting, closed_ne_zero hclosed]
  | element hclosed hscan hrest ih => exact ih hpartly

end Loop

/-! ## The codec -/

theorem expecting_default : ScanState.default.Expecting := by
  simp [ScanState.Expecting, ScanState.default]

section Codec

variable {env : TextParsers} {buf : Bytes} {state : ScanState}

theorem scanResume_append (more : Bytes) :
    scanResume env (buf ++ more) state =
      (scanResume env buf state).resume env (buf ++ more) :=
  (scans_scanResume state).append more

theorem scanResume_complete {stop : Nat} (hexpecting : state.Expecting)
    (hscan : scanResume env buf state = .complete stop) : 0 < stop ∧ stop ≤ buf.length := by
  rcases (scans_scanResume state).complete_bounds hscan with ⟨hclosed, -⟩ | ⟨hlt, hle⟩
  · exact absurd hclosed hexpecting
  · exact ⟨by omega, hle⟩

theorem decodeStream_append (hbuf : buf ≠ []) (more : Bytes) :
    decodeStream env false (buf ++ more) state =
      decodeScanned env false (buf ++ more)
        ((scanResume env buf state).resume env (buf ++ more)) := by
  rw [decodeStream, if_neg (by simp [hbuf]), scanResume_append]

def Stable (env : TextParsers) (buf : Bytes) (state : ScanState) (more : Bytes) :
    Decoded UInt8 ScanState Value RedisError → Prop
  | .item value rest next => next.Expecting ∧ rest.length < buf.length ∧
      decodeStream env false (buf ++ more) state = .item value (rest ++ more) next
  | .wait next => next.Expecting ∧
      decodeStream env false (buf ++ more) state = decodeStream env false (buf ++ more) next
  | .fail error => decodeStream env false (buf ++ more) state = .fail error

theorem decodeStream_stable (env : TextParsers) (buf : Bytes) (hexpecting : state.Expecting)
    (more : Bytes) :
    Stable env buf state more (decodeStream env false buf state) := by
  by_cases hbuf : buf = []
  · rw [decodeStream, if_pos hbuf]
    exact ⟨hexpecting, rfl⟩
  · have happend : decodeStream env false (buf ++ more) state = _ := decodeStream_append hbuf more
    rw [decodeStream, if_neg hbuf]
    cases hscan : scanResume env buf state with
    | failed error =>
      rw [hscan] at happend
      exact happend
    | partly kept =>
      refine ⟨(scans_scanResume state).partly_expecting hscan, ?_⟩
      rw [happend, hscan, Scanned.resume, decodeStream, if_neg (by simp [hbuf])]
    | complete stop =>
      obtain ⟨hpositive, hle⟩ := scanResume_complete hexpecting hscan
      simp only [hscan, Scanned.resume, decodeScanned, take_append_agree more hle] at happend ⊢
      cases hparse : parseValue env (buf.take stop) 1 ⟨0, []⟩ with
      | error error cursor =>
        rw [hparse] at happend
        exact happend
      | ok value cursor =>
        rw [hparse, List.drop_append_of_le_length hle] at happend
        exact ⟨expecting_default, by rw [List.length_drop]; omega, happend⟩

theorem decodeStream_incremental (env : TextParsers) :
    Incremental (decodeStream env false) ScanState.Expecting where
  item := by
    intro buf state value rest next hexpecting hdecode
    have hstable := decodeStream_stable env buf hexpecting
    rw [hdecode] at hstable
    exact ⟨(hstable []).1, (hstable []).2.1, fun more => (hstable more).2.2⟩
  wait := by
    intro buf state next hexpecting hdecode
    have hstable := decodeStream_stable env buf hexpecting
    rw [hdecode] at hstable
    exact ⟨(hstable []).1, fun more => (hstable more).2⟩
  fail := by
    intro buf state error hexpecting hdecode more
    have hstable := decodeStream_stable env buf hexpecting more
    rwa [hdecode] at hstable

theorem decodeChunks_eq (env : TextParsers) (chunks : List Bytes) :
    decodeChunks env chunks = decodeChunks env [chunks.flatten] := by
  have hsettled : ValueCodec.new.Settled (decodeStream env false) ScanState.Expecting := by
    rintro buf state ⟨⟩
    exact ⟨expecting_default, rfl⟩
  rw [decodeChunks, decodeChunks, feedAll_eq_feed (decodeStream_incremental env) hsettled]
  rfl

end Codec

end ValkeyGlide.Resp
