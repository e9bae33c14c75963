import ExnGs.Lib.Thinning
import ExnGs.Shared.ProtocolDecode

set_option autoImplicit false

namespace ExnGs.Proto

def frames : Segmenter UInt8 Frame where
  cut := fun buffer =>
    if HoldsFrame buffer then some (firstFrame buffer, 4 + lengthField buffer) else none
  cut_pos := by
    intro buffer f size found
    split at found
    next => cases found; omega
    next => contradiction
  cut_le := by
    intro buffer f size found
    split at found
    next holds => cases found; exact holds.2.2
    next => contradiction
  cut_append := by
    intro buffer f size more found
    split at found
    next holds =>
      cases found
      have length := lengthField_append buffer more holds.1
      have inside := holds.2.2
      have still : HoldsFrame (buffer ++ more) := by
        obtain ⟨long, atLeast, whole⟩ := holds
        refine ⟨?_, by rw [length]; exact atLeast, ?_⟩ <;>
          simp only [length, List.length_append] <;> omega
      have same : firstFrame (buffer ++ more) = firstFrame buffer := by
        have type : ((buffer ++ more).drop 4).take 2 = (buffer.drop 4).take 2 := by
          obtain ⟨long, atLeast, whole⟩ := holds
          rw [List.drop_append_of_le_length long,
            List.take_append_of_le_length (by simp only [List.length_drop]; omega)]
        simp only [firstFrame, type, length, List.take_append_of_le_length inside]
      rw [if_pos still, same, length]
    next => contradiction

theorem frames_cut {buffer : List UInt8} (holds : HoldsFrame buffer) :
    frames.cut buffer = some (firstFrame buffer, 4 + lengthField buffer) :=
  if_pos holds

theorem frames_wait {buffer : List UInt8} (incomplete : ¬ HoldsFrame buffer) :
    frames.cut buffer = none :=
  if_neg incomplete

theorem holdsFrame_of_cut {buffer : List UInt8} {f : Frame} {size : Nat}
    (found : frames.cut buffer = some (f, size)) : HoldsFrame buffer := by
  by_contra incomplete
  rw [frames_wait incomplete] at found
  contradiction

theorem frames_prompt : frames.Prompt := by
  intro held later f size found le
  have holds := holdsFrame_of_cut found
  rw [frames_cut holds] at found
  cases found
  have long : 4 ≤ held.length := by
    have := holds.2.1
    omega
  rw [lengthField_append held later long] at le
  have still : HoldsFrame held := by
    have := holds.2.1
    rw [lengthField_append held later long] at this
    exact ⟨long, this, le⟩
  rw [← frames_cut holds, frames.cut_append later (frames_cut still), frames_cut still]

theorem tryDecode_cut {buffer : List UInt8} {f : Frame} {size : Nat}
    (found : frames.cut buffer = some (f, size)) (out : Frame) :
    tryDecode buffer out = some (true, buffer.drop size, f) ∧ encode f = buffer.take size := by
  have holds := holdsFrame_of_cut found
  rw [frames_cut holds] at found
  cases found
  exact ⟨tryDecode_frame buffer out holds, encode_firstFrame buffer holds⟩

-- Where `try_decode` returns, it cuts off the next frame, or it waits for more of it.
theorem tryDecode_cases {buffer rest : List UInt8} {out f : Frame} {found : Bool}
    (decoded : tryDecode buffer out = some (found, rest, f)) :
    (found = true ∧ ∃ size, frames.cut buffer = some (f, size) ∧ rest = buffer.drop size) ∨
      (found = false ∧ frames.cut buffer = none ∧ rest = buffer ∧ f = out) := by
  by_cases holds : HoldsFrame buffer
  · rw [tryDecode_frame buffer out holds] at decoded
    cases decoded
    exact .inl ⟨rfl, _, frames_cut holds, rfl⟩
  · by_cases overruns : Overruns buffer
    · rw [tryDecode_overrun buffer out overruns] at decoded
      cases decoded
    · rw [tryDecode_wait buffer out holds overruns] at decoded
      cases decoded
      exact .inr ⟨rfl, frames_wait holds, rfl, rfl⟩

theorem tryDecode_shorter {buffer rest : List UInt8} {out f : Frame}
    (decoded : tryDecode buffer out = some (true, rest, f)) : rest.length < buffer.length := by
  by_cases holds : HoldsFrame buffer
  · rw [tryDecode_frame buffer out holds] at decoded
    cases decoded
    exact frames.drop_shorter (frames_cut holds)
  · by_cases overruns : Overruns buffer
    · rw [tryDecode_overrun buffer out overruns] at decoded
      contradiction
    · rw [tryDecode_wait buffer out holds overruns] at decoded
      cases decoded

-- The loop `while (try_decode(buffer, f))`: the frames its body sees, then the buffer.
def decodeLoop (buffer : List UInt8) (f : Frame) : Option (List Frame × List UInt8) :=
  match _decoded : tryDecode buffer f with
  | none => none
  | some (false, rest, _) => some ([], rest)
  | some (true, rest, f) => (decodeLoop rest f).map fun later => (f :: later.1, later.2)
termination_by buffer.length
decreasing_by exact tryDecode_shorter _decoded

theorem decodeLoop_stop {buffer rest : List UInt8} {f out : Frame}
    (decoded : tryDecode buffer f = some (false, rest, out)) :
    decodeLoop buffer f = some ([], rest) := by
  rw [decodeLoop.eq_def]
  split <;> simp_all

theorem decodeLoop_undefined {buffer : List UInt8} {f : Frame} (fault : tryDecode buffer f = none) :
    decodeLoop buffer f = none := by
  rw [decodeLoop.eq_def]
  split <;> simp_all

theorem decodeLoop_next {buffer rest : List UInt8} {f out : Frame}
    (decoded : tryDecode buffer f = some (true, rest, out)) :
    decodeLoop buffer f = (decodeLoop rest out).map fun later => (out :: later.1, later.2) := by
  conv => lhs; rw [decodeLoop.eq_def]
  split <;> simp_all

def decodeAll (stream : List UInt8) : List Frame × List UInt8 :=
  ((frames.split stream).1.map Prod.fst, (frames.split stream).2)

theorem decodeAll_wait {stream : List UInt8} (incomplete : ¬ HoldsFrame stream) :
    decodeAll stream = ([], stream) := by
  rw [decodeAll, frames.split_none (frames_wait incomplete)]
  rfl

theorem decodeAll_frame {held : List UInt8} (holds : HoldsFrame held) (later : List UInt8) :
    decodeAll (held ++ later) =
      (firstFrame held :: (decodeAll (held.drop (4 + lengthField held) ++ later)).1,
        (decodeAll (held.drop (4 + lengthField held) ++ later)).2) := by
  have found := frames_cut holds
  rw [decodeAll, frames.split_some (frames.cut_append later found),
    List.drop_append_of_le_length (frames.cut_le found)]
  rfl

theorem decodeAll_append (held later : List UInt8) :
    decodeAll (held ++ later) =
      ((decodeAll held).1 ++ (decodeAll ((decodeAll held).2 ++ later)).1,
        (decodeAll ((decodeAll held).2 ++ later)).2) := by
  simp only [decodeAll, frames.split_append held later, List.map_append]

theorem decodeAll_residue (stream : List UInt8) :
    decodeAll (decodeAll stream).2 = ([], (decodeAll stream).2) := by
  simp only [decodeAll, frames.split_none (frames.cut_residue stream), List.map_nil]

-- The loop takes out every whole frame, unless what is left makes `try_decode` overrun.
theorem decodeLoop_decodeAll (buffer : List UInt8) (f : Frame)
    (safe : ¬ Overruns (decodeAll buffer).2) : decodeLoop buffer f = some (decodeAll buffer) := by
  unfold decodeAll at safe ⊢
  induction buffer using frames.cut_induction generalizing f with
  | stop buffer waiting =>
    have incomplete : ¬ HoldsFrame buffer := by
      intro holds
      rw [frames_cut holds] at waiting
      contradiction
    rw [frames.split_none waiting] at safe ⊢
    exact decodeLoop_stop (tryDecode_wait buffer f incomplete safe)
  | next buffer first size found ih =>
    have holds := holdsFrame_of_cut found
    rw [frames_cut holds] at found
    cases found
    rw [frames.split_some (frames_cut holds)] at safe ⊢
    rw [decodeLoop_next (tryDecode_frame buffer f holds), ih _ safe]
    rfl

theorem decodeLoop_overruns (buffer : List UInt8) (f : Frame)
    (overruns : Overruns (decodeAll buffer).2) : decodeLoop buffer f = none := by
  unfold decodeAll at overruns
  induction buffer using frames.cut_induction generalizing f with
  | stop buffer waiting =>
    rw [frames.split_none waiting] at overruns
    exact decodeLoop_undefined (tryDecode_overrun buffer f overruns)
  | next buffer first size found ih =>
    have holds := holdsFrame_of_cut found
    rw [frames_cut holds] at found
    cases found
    rw [frames.split_some (frames_cut holds)] at overruns
    rw [decodeLoop_next (tryDecode_frame buffer f holds), ih _ overruns]
    rfl

-- A frame whose length field, with the four bytes of the field itself, stays below `2^32`.
def FitsField (f : Frame) : Prop := 2 + f.payload.length ≤ 0xFFFFFFFB

-- The proper beginnings of frames whose length fits, the empty one among them.
def Incomplete (tail : List UInt8) : Prop :=
  ∃ f, FitsField f ∧ tail <+: encode f ∧ tail ≠ encode f

theorem length_encode (f : Frame) (encodable : FitsField f) :
    (encode f).length = 6 + f.payload.length := by
  rw [encode_bytes f (by unfold FitsField at encodable; omega)]
  simp only [List.length_append, BigEndian.length_bytes]

theorem lengthField_encode (f : Frame) (encodable : FitsField f) (more : List UInt8) :
    lengthField (encode f ++ more) = 2 + f.payload.length := by
  unfold FitsField at encodable
  rw [encode_bytes f (by omega), lengthField, List.append_assoc, List.append_assoc,
    List.take_left' (BigEndian.length_bytes 4 _), BigEndian.value_bytes_of_lt (by omega)]

theorem firstFrame_encode (f : Frame) (encodable : FitsField f) (more : List UInt8) :
    firstFrame (encode f ++ more) = f := by
  have length := length_encode f encodable
  have field := lengthField_encode f encodable more
  have bytes := encode_bytes f (by unfold FitsField at encodable; omega)
  have type : (encode f ++ more).drop 4 =
      BigEndian.bytes 2 f.type.value.toNat ++ (f.payload ++ more) := by
    rw [bytes, List.append_assoc, List.append_assoc, List.drop_left' (BigEndian.length_bytes 4 _)]
  have payload : ((encode f ++ more).take (6 + f.payload.length)).drop 6 = f.payload := by
    rw [← length, List.take_left, bytes, List.drop_left' (by simp)]
  have small := f.type.value.toNat_lt
  rw [firstFrame, field, type, List.take_left' (BigEndian.length_bytes 2 _),
    BigEndian.value_bytes_of_lt small, UInt16.ofNat_toNat,
    show 4 + (2 + f.payload.length) = 6 + f.payload.length by omega, payload]

theorem holdsFrame_encode (f : Frame) (encodable : FitsField f) (more : List UInt8) :
    HoldsFrame (encode f ++ more) := by
  have length := length_encode f encodable
  have field := lengthField_encode f encodable more
  simp only [HoldsFrame, field, List.length_append]
  omega

theorem incomplete_nil : Incomplete [] := by
  have encodable : FitsField { type := MsgType.Hello, payload := [] } := by
    simp [FitsField]
  refine ⟨_, encodable, List.nil_prefix, ?_⟩
  intro empty
  have length := length_encode _ encodable
  rw [← empty] at length
  simp at length

theorem Incomplete.field {tail : List UInt8} (incomplete : Incomplete tail) (long : 4 ≤ tail.length) :
    tail.length < 4 + lengthField tail ∧ 2 ≤ lengthField tail ∧ 4 + lengthField tail < 2 ^ 32 := by
  obtain ⟨f, encodable, ⟨rest, whole⟩, proper⟩ := incomplete
  have length := length_encode f encodable
  have field := lengthField_encode f encodable []
  rw [List.append_nil, ← whole, lengthField_append tail rest long] at field
  have missing : rest ≠ [] := by
    rintro rfl
    exact proper (by rw [← whole, List.append_nil])
  have atLeast := List.length_pos_of_ne_nil missing
  rw [← whole, List.length_append] at length
  unfold FitsField at encodable
  omega

theorem Incomplete.not_holdsFrame {tail : List UInt8} (incomplete : Incomplete tail) :
    ¬ HoldsFrame tail := by
  rintro ⟨long, _, whole⟩
  have := (incomplete.field long).1
  omega

theorem Incomplete.not_overruns {tail : List UInt8} (incomplete : Incomplete tail) :
    ¬ Overruns tail := by
  rintro ⟨long, wraps, _⟩
  have := (incomplete.field long).2.2
  omega

theorem Incomplete.shorten {tail front : List UInt8} (incomplete : Incomplete tail)
    (part : front <+: tail) : Incomplete front := by
  obtain ⟨f, encodable, begins, proper⟩ := incomplete
  refine ⟨f, encodable, part.trans begins, ?_⟩
  rintro rfl
  exact proper (begins.eq_of_length_le part.length_le)

-- A header whose length field fits is completed with zeros.
theorem incomplete_header {tail : List UInt8} (long : 4 ≤ tail.length)
    (waiting : tail.length < 4 + lengthField tail) (atLeast : 2 ≤ lengthField tail)
    (fits : lengthField tail ≤ 0xFFFFFFFB) : Incomplete tail := by
  let full := tail ++ List.replicate (4 + lengthField tail - tail.length) 0
  have field : lengthField full = lengthField tail := lengthField_append tail _ long
  have length : full.length = 4 + lengthField tail := by
    simp only [full, List.length_append, List.length_replicate]
    omega
  have holds : HoldsFrame full := ⟨by omega, by omega, by omega⟩
  have whole : encode (firstFrame full) = full := by
    rw [encode_firstFrame full holds, List.take_of_length_le (by omega)]
  refine ⟨firstFrame full, ?_, ?_, ?_⟩
  · rw [FitsField, length_firstFrame_payload full holds, field]
    omega
  · rw [whole]
    exact List.prefix_append _ _
  · intro same
    rw [whole] at same
    rw [← same] at length
    omega

theorem incomplete_short {tail : List UInt8} (short : tail.length < 4) : Incomplete tail := by
  let zeros := tail ++ List.replicate (3 - tail.length) 0
  have length : zeros.length = 3 := by
    simp only [zeros, List.length_append, List.length_replicate]
    omega
  have field : lengthField (zeros ++ [2]) = BigEndian.value zeros * 256 + 2 := by
    rw [lengthField, List.take_of_length_le (by simp [length]), BigEndian.value_concat]
    rfl
  have bound := BigEndian.value_lt zeros
  rw [length] at bound
  have size : (zeros ++ [2]).length = 4 := by rw [List.length_append, length, List.length_singleton]
  have header : Incomplete (zeros ++ [2]) :=
    incomplete_header (by omega) (by omega) (by omega) (by omega)
  exact header.shorten ⟨List.replicate (3 - tail.length) 0 ++ [2], by simp [zeros]⟩

-- The length field, once it is there, is that of a frame which can be encoded.
def PossibleField (tail : List UInt8) : Prop :=
  4 ≤ tail.length → 2 ≤ lengthField tail ∧ lengthField tail ≤ 0xFFFFFFFB

theorem PossibleField.not_overruns {tail : List UInt8} (possible : PossibleField tail) :
    ¬ Overruns tail := by
  rintro ⟨long, wraps, _⟩
  have := possible long
  omega

theorem incomplete_iff {tail : List UInt8} (waiting : ¬ HoldsFrame tail) :
    Incomplete tail ↔ PossibleField tail := by
  constructor
  · intro incomplete long
    have field := incomplete.field long
    omega
  · intro possible
    by_cases short : tail.length < 4
    · exact incomplete_short short
    · have field := possible (by omega)
      simp only [HoldsFrame] at waiting
      exact incomplete_header (by omega) (by omega) field.1 field.2

theorem Incomplete.completed {tail : List UInt8} (incomplete : Incomplete tail) (out : Frame) :
    ∃ more f, tryDecode (tail ++ more) out = some (true, [], f) := by
  obtain ⟨f, encodable, ⟨more, whole⟩, _⟩ := incomplete
  have holds := holdsFrame_encode f encodable []
  have field := lengthField_encode f encodable []
  have length := length_encode f encodable
  refine ⟨more, f, ?_⟩
  rw [whole, ← List.append_nil (encode f), tryDecode_frame _ out holds, field,
    firstFrame_encode f encodable, List.append_nil, List.drop_eq_nil_of_le (by omega)]

def encodeAll (fs : List Frame) : List UInt8 := fs.flatMap encode

theorem decodeAll_encodeAll (fs : List Frame) (tail : List UInt8)
    (encodable : ∀ f ∈ fs, FitsField f) (incomplete : Incomplete tail) :
    decodeAll (encodeAll fs ++ tail) = (fs, tail) := by
  have tiles : frames.Tiles tail (fs.map fun f => (f, encode f)) := by
    induction fs with
    | nil => trivial
    | cons f fs ih =>
      have first := encodable f (by simp)
      refine ⟨?_, ih fun g member => encodable g (List.mem_cons_of_mem _ member)⟩
      rw [frames_cut (holdsFrame_encode f first _), firstFrame_encode f first,
        lengthField_encode f first, length_encode f first]
      congr 2
      omega
  have split := frames.split_tiles tail _ tiles
  rw [frames.split_none (frames_wait incomplete.not_holdsFrame)] at split
  rw [List.flatMap_map] at split
  simp [decodeAll, encodeAll, split, Function.comp_def]

theorem prefix_encodeAll (fs : List Frame) (tail : List UInt8) (encodable : ∀ f ∈ fs, FitsField f)
    (incomplete : Incomplete tail) {part : List UInt8} (begins : part <+: encodeAll fs ++ tail) :
    ∃ gs rest, part = encodeAll gs ++ rest ∧ (∀ f ∈ gs, FitsField f) ∧ Incomplete rest := by
  induction fs generalizing part with
  | nil => exact ⟨[], part, rfl, by simp, incomplete.shorten begins⟩
  | cons f fs ih =>
    have first := encodable f (by simp)
    have others : ∀ g ∈ fs, FitsField g := fun g member => encodable g (List.mem_cons_of_mem _ member)
    have whole : encodeAll (f :: fs) ++ tail = encode f ++ (encodeAll fs ++ tail) := by
      simp [encodeAll]
    rw [whole] at begins
    by_cases inside : part.length < (encode f).length
    · refine ⟨[], part, rfl, by simp, f, first, ?_, ?_⟩
      · exact List.prefix_of_prefix_length_le begins (List.prefix_append _ _) (Nat.le_of_lt inside)
      · rintro rfl
        omega
    · obtain ⟨later, rfl⟩ : encode f <+: part :=
        List.prefix_of_prefix_length_le (List.prefix_append _ _) begins (by omega)
      obtain ⟨gs, rest, rfl, valid, proper⟩ :=
        ih others ((List.prefix_append_right_inj _).mp begins)
      refine ⟨f :: gs, rest, by simp [encodeAll], ?_, proper⟩
      intro g member
      rcases List.mem_cons.mp member with rfl | later
      · exact first
      · exact valid g later

/-- Reads that are appended to what is held, and decoded, without leaving bytes on which `try_decode`
overruns. -/
def SafeReads (held : List UInt8) (reads : List (List UInt8)) : Prop :=
  ∀ earlier, earlier <+: reads → ¬ Overruns (decodeAll (held ++ earlier.flatten)).2

theorem SafeReads.now {held : List UInt8} {reads : List (List UInt8)} (safe : SafeReads held reads) :
    ¬ Overruns (decodeAll held).2 := by
  simpa using safe [] List.nil_prefix

theorem SafeReads.next {held data : List UInt8} {reads : List (List UInt8)}
    (safe : SafeReads held (data :: reads)) : SafeReads (held ++ data) reads := by
  intro earlier begins
  simpa [List.append_assoc] using safe (data :: earlier) (List.cons_prefix_cons.mpr ⟨rfl, begins⟩)

theorem SafeReads.cons {held data : List UInt8} {rest : List (List UInt8)}
    (now : ¬ Overruns (decodeAll held).2) (later : SafeReads (decodeAll (held ++ data)).2 rest) :
    SafeReads held (data :: rest) := by
  intro earlier begins
  rcases List.prefix_cons_iff.mp begins with rfl | ⟨first, rfl, part⟩
  · simpa using now
  · have safe := later first part
    rw [List.flatten_cons, ← List.append_assoc, decodeAll_append]
    exact safe

theorem SafeReads.decoded {held : List UInt8} {reads : List (List UInt8)}
    (safe : SafeReads held reads) : SafeReads (decodeAll held).2 reads := by
  intro earlier begins
  have := safe earlier begins
  rwa [decodeAll_append] at this

theorem SafeReads.taken {held : List UInt8} {reads : List (List UInt8)} (safe : SafeReads held reads)
    (holds : HoldsFrame held) : SafeReads (held.drop (4 + lengthField held)) reads := by
  intro earlier begins
  have := safe earlier begins
  rwa [decodeAll_frame holds] at this

-- The frames of reads that are appended to what is held, one after the other, and what is held then.
def decodeReads (held : List UInt8) : List (List UInt8) → Option (List Frame × List UInt8)
  | [] => some ([], held)
  | data :: rest => do
    let now ← decodeLoop (held ++ data) .unset
    let later ← decodeReads now.2 rest
    return (now.1 ++ later.1, later.2)

theorem decodeReads_decodeAll (reads : List (List UInt8)) {held : List UInt8}
    (waiting : decodeAll held = ([], held)) (safe : SafeReads held reads) :
    decodeReads held reads = some (decodeAll (held ++ reads.flatten)) := by
  induction reads generalizing held with
  | nil => rw [decodeReads, List.flatten_nil, List.append_nil, waiting]
  | cons data rest ih =>
    have now := decodeLoop_decodeAll (held ++ data) .unset safe.next.now
    have later := ih (decodeAll_residue (held ++ data)) safe.next.decoded
    simp [decodeReads, now, later, ← List.append_assoc, decodeAll_append (held ++ data) rest.flatten]

theorem decodeReads_safe (reads : List (List UInt8)) {held : List UInt8}
    {result : List Frame × List UInt8} (waiting : decodeAll held = ([], held))
    (safe : ¬ Overruns held) (ran : decodeReads held reads = some result) : SafeReads held reads := by
  induction reads generalizing held result with
  | nil =>
    intro earlier begins
    rw [List.prefix_nil.mp begins, List.flatten_nil, List.append_nil, waiting]
    exact safe
  | cons data rest ih =>
    by_cases overruns : Overruns (decodeAll (held ++ data)).2
    · simp [decodeReads, decodeLoop_overruns _ .unset overruns] at ran
    · have now := decodeLoop_decodeAll (held ++ data) .unset overruns
      simp only [decodeReads, now, Option.bind_eq_bind, Option.bind_some, Option.pure_def,
        Option.bind_eq_some_iff] at ran
      obtain ⟨later, ran, _⟩ := ran
      exact .cons (by rwa [waiting]) (ih (decodeAll_residue _) overruns ran)

theorem safeReads_encodeAll (fs : List Frame) (tail : List UInt8)
    (encodable : ∀ f ∈ fs, FitsField f) (incomplete : Incomplete tail) (reads : List (List UInt8))
    (cut : reads.flatten = encodeAll fs ++ tail) : SafeReads [] reads := by
  rintro earlier ⟨later, rfl⟩
  have begins : earlier.flatten <+: encodeAll fs ++ tail := by
    rw [← cut, List.flatten_append]
    exact List.prefix_append _ _
  obtain ⟨gs, rest, part, valid, proper⟩ := prefix_encodeAll fs tail encodable incomplete begins
  rw [List.nil_append, part, decodeAll_encodeAll gs rest valid proper]
  exact proper.not_overruns

end ExnGs.Proto
