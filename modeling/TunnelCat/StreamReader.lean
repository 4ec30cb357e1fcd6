import TunnelCat.Download

/-!
`framedDecryptReader` of the client (`snc/core/tunnel.go`) over a body that comes in pieces of any size: its
`Read`s return the chunks that `streamToClient` of the exit sealed, whole and in order, up to where the body
ends (`stream_read`).
-/
namespace TunnelCat.StreamReader
open Bytes Runs List
open Download (streamFrame openFrame sealTunnelData bufferSize)

abbrev Data := List UInt8

inductive ReadError
  | eof
  | unexpectedEOF
  | tooLarge (frameLen : Nat)
  | decrypt

/-- `io.ReadFull` of `n` more bytes, over the pieces in which the source returns its bytes. -/
def readFull : List Data → Nat → Data → Except ReadError Data × List Data
  | pieces, 0, got => (.ok got,pieces)
  | [], _ + 1, got => (.error (if got = [] then .eof else .unexpectedEOF),[])
  | piece :: rest, n + 1, got =>
    if n + 1 < piece.length then (.ok (got ++ piece.take (n + 1)),piece.drop (n + 1) :: rest)
    else readFull rest (n + 1 - piece.length) (got ++ piece)

structure Reader where
  src : List Data
  buf : Data

variable (A : Cipher)

def read (r : Reader) (size : Nat) : Reader × Except ReadError Data :=
  if r.buf ≠ [] then (⟨r.src,r.buf.drop size⟩,.ok (r.buf.take size))
  else
    match readFull r.src 4 [] with
    | (.error e,src) => (⟨src,[]⟩,.error e)
    | (.ok lenBuf,src) =>
      let frameLen := beNat lenBuf
      if frameLen > 1048576 then (⟨src,[]⟩,.error (.tooLarge frameLen))
      else
        match readFull src frameLen [] with
        | (.error e,src) => (⟨src,[]⟩,.error e)
        | (.ok frame,src) =>
          match openFrame A frame with
          | none => (⟨src,[]⟩,.error .decrypt)
          | some plain => (⟨src,plain.drop size⟩,.ok (plain.take size))

def wire (chunks : List (Nonce 12 × Data)) : Data := chunks.flatMap (fun c => streamFrame A c.1 c.2)

def content (chunks : List (Nonce 12 × Data)) : Data := chunks.flatMap Prod.snd

def returned (results : List (Except ReadError Data)) : Data := results.flatMap (fun r => r.toOption.getD [])

theorem readFull_full : ∀ (pieces : List Data) (n : Nat) (got : Data), n ≤ pieces.flatten.length →
    ∃ rest, readFull pieces n got = (.ok (got ++ pieces.flatten.take n),rest) ∧ rest.flatten = pieces.flatten.drop n := by
  intro pieces
  induction pieces with
  | nil =>
    intro n got enough
    obtain rfl : n = 0 := by simpa using enough
    exact ⟨[],by simp [readFull],rfl⟩
  | cons piece rest ih =>
    intro n got enough
    cases n with
    | zero => exact ⟨piece :: rest,by simp [readFull],by simp⟩
    | succ n =>
      rw [readFull,flatten_cons]
      by_cases inside : n + 1 < piece.length
      · rw [if_pos inside,take_append_of_le_length (by omega),drop_append_of_le_length (by omega)]
        exact ⟨_,rfl,rfl⟩
      · rw [flatten_cons,length_append] at enough
        obtain ⟨left,filled,after⟩ := ih (n + 1 - piece.length) (got ++ piece) (by omega)
        refine ⟨left,?_,?_⟩
        · rw [if_neg inside,filled,take_append,take_of_length_le (show piece.length ≤ n + 1 by omega),append_assoc]
        · rw [after,drop_append,drop_of_length_le (show piece.length ≤ n + 1 by omega),nil_append]

theorem readFull_short : ∀ (pieces : List Data) (n : Nat) (got : Data), pieces.flatten.length < n →
    ∃ e, readFull pieces n got = (.error e,[]) ∧ (pieces.flatten = [] → got = [] → e = .eof) := by
  intro pieces
  induction pieces with
  | nil =>
    intro n got short
    obtain ⟨n,rfl⟩ := Nat.exists_eq_add_one.mpr short
    exact ⟨_,rfl,fun _ none => if_pos none⟩
  | cons piece rest ih =>
    intro n got short
    rw [flatten_cons,length_append] at short
    obtain ⟨n,rfl⟩ := Nat.exists_eq_add_one.mpr (show 0 < n by omega)
    obtain ⟨e,failed,ends⟩ := ih (n + 1 - piece.length) (got ++ piece) (by omega)
    refine ⟨e,by rw [readFull,if_neg (by omega),failed],fun none nothing => ?_⟩
    rw [flatten_cons,append_eq_nil_iff] at none
    exact ends none.2 (by rw [nothing,none.1]; rfl)

/-- A `Read` of a buffer of `bufferSize` is what `TunnelCat.Download` takes for one, on the bytes in all the pieces. -/
theorem read_readBody (r : Reader) :
    match Download.readBody A r.buf r.src.flatten with
    | .data bytes buf src => ∃ pieces, read A r bufferSize = (⟨pieces,buf⟩,.ok bytes) ∧ pieces.flatten = src
    | .short | .refused => ∃ r' e, read A r bufferSize = (r',.error e) := by
  unfold Download.readBody read
  by_cases buffered : r.buf ≠ []
  · simp [buffered]
  rw [if_neg buffered,if_neg buffered]
  by_cases short : r.src.flatten.length < 4
  · obtain ⟨e,failed,-⟩ := readFull_short r.src 4 [] short
    rw [if_pos short,failed]
    exact ⟨_,_,rfl⟩
  obtain ⟨src,filled,after⟩ := readFull_full r.src 4 [] (by omega)
  rw [if_neg short,filled]
  simp only [nil_append]
  by_cases large : 1048576 < beNat (r.src.flatten.take 4)
  · simp [large]
  rw [if_neg large,if_neg large]
  by_cases cut : r.src.flatten.length < 4 + beNat (r.src.flatten.take 4)
  · obtain ⟨e,failed,-⟩ := readFull_short src (beNat (r.src.flatten.take 4)) [] (by rw [after,length_drop]; omega)
    rw [if_pos cut,failed]
    exact ⟨_,_,rfl⟩
  obtain ⟨left,frame,behind⟩ := readFull_full src (beNat (r.src.flatten.take 4)) [] (by rw [after,length_drop]; omega)
  rw [if_neg cut,frame]
  simp only [nil_append,after]
  cases openFrame A ((r.src.flatten.drop 4).take (beNat (r.src.flatten.take 4))) with
  | none => exact ⟨_,_,rfl⟩
  | some plain => exact ⟨left,rfl,by rw [behind,after,drop_drop]⟩

theorem split_begins {s t a b : Data} (same : s ++ t = a ++ b) (long : a.length ≤ s.length) :
    s.take a.length = a ∧ s.drop a.length ++ t = b := by
  have first := congrArg (take a.length) same
  have later := congrArg (drop a.length) same
  rw [take_append_of_le_length long,take_left] at first
  rw [drop_append_of_le_length long,drop_left] at later
  exact ⟨first,later⟩

section
variable {A} {r : Reader} {size : Nat} {chunks : List (Nonce 12 × Data)}

/-- From a body that begins as that of the chunks, a read takes bytes of the buffer, opens the next frame, or finds
    that the body ends. -/
theorem read_cases (small : ∀ c ∈ chunks, c.2.length ≤ bufferSize) (begins : r.src.flatten <+: wire A chunks) (size : Nat) :
    r.buf ≠ [] ∧ read A r size = (⟨r.src,r.buf.drop size⟩,.ok (r.buf.take size)) ∨
    (∃ c rest src, r.buf = [] ∧ chunks = c :: rest ∧ r.src.flatten = streamFrame A c.1 c.2 ++ src.flatten ∧
      read A r size = (⟨src,c.2.drop size⟩,.ok (c.2.take size))) ∨
    ∃ e, r.buf = [] ∧ read A r size = (⟨[],[]⟩,.error e) ∧ (r.src.flatten = wire A chunks → chunks = [] ∧ e = .eof) := by
  by_cases buffered : r.buf = []
  · refine .inr ?_
    unfold read
    rw [if_neg (not_not.mpr buffered)]
    cases chunks with
    | nil =>
      have nothing : r.src.flatten = [] := by simpa [wire] using begins
      obtain ⟨e,failed,ends⟩ := readFull_short r.src 4 [] (by simp [nothing])
      exact .inr ⟨e,buffered,by rw [failed],fun _ => ⟨rfl,ends nothing rfl⟩⟩
    | cons c rest =>
      have sealed := Download.length_sealTunnelData A c.1 c.2
      have fits := small c mem_cons_self
      unfold bufferSize at fits
      obtain ⟨t,same⟩ := begins
      have frame : wire A (c :: rest) = beBytes 4 (28 + c.2.length) ++ (sealTunnelData A c.1 c.2 ++ wire A rest) := by
        simp [wire,streamFrame,sealed]
      -- a body that ends inside the frame is not that of the chunks
      have cut (short : r.src.flatten.length < 4 + (28 + c.2.length)) : r.src.flatten ≠ wire A (c :: rest) := by
        intro same
        rw [same,frame,length_append,length_append,length_beBytes,sealed] at short
        omega
      rw [frame] at same
      by_cases header : r.src.flatten.length < 4
      · obtain ⟨e,failed,-⟩ := readFull_short r.src 4 [] header
        exact .inr ⟨e,buffered,by rw [failed],fun same => absurd same (cut (by omega))⟩
      obtain ⟨src,filled,after⟩ := readFull_full r.src 4 [] (by omega)
      obtain ⟨lenBuf,same⟩ := split_begins same (by rw [length_beBytes]; omega)
      rw [length_beBytes] at lenBuf same
      have frameLen : beNat ([] ++ r.src.flatten.take 4) = 28 + c.2.length := by
        rw [nil_append,lenBuf,beNat_beBytes]
        omega
      rw [filled]
      dsimp only
      rw [frameLen,if_neg (by omega)]
      rw [← after] at same
      by_cases body : src.flatten.length < 28 + c.2.length
      · obtain ⟨e,failed,-⟩ := readFull_short src _ [] body
        have length := congrArg List.length after
        rw [length_drop] at length
        exact .inr ⟨e,buffered,by rw [failed],fun same => absurd same (cut (by omega))⟩
      obtain ⟨src',filled',after'⟩ := readFull_full src (28 + c.2.length) [] (by omega)
      obtain ⟨frame_,-⟩ := split_begins same (by omega)
      rw [sealed] at frame_
      refine .inl ⟨c,rest,src',buffered,rfl,?_,?_⟩
      · rw [after',streamFrame,sealed,append_assoc,← frame_,take_append_drop,after,← lenBuf,take_append_drop]
      · simp only [filled',nil_append,frame_,Download.openFrame_seal]
  · exact .inl ⟨buffered,by rw [read,if_pos buffered]⟩

end

/-- What was returned, what is buffered and what the chunks `rest` hold is the content. Of a whole body, `rest` is what is
    left of it, every read so far has moved on, and one that found the end came after everything else. -/
structure Follows (whole : Prop) (total : Data) (reads : Nat) (past : List (Except ReadError Data)) (r : Reader)
    (rest : List (Nonce 12 × Data)) : Prop where
  small : ∀ c ∈ rest, c.2.length ≤ bufferSize
  content : returned past ++ (r.buf ++ content rest) = total
  begins : r.src.flatten <+: wire A rest
  body : whole → r.src.flatten = wire A rest
  moves : whole → r.buf = [] ∧ rest = [] ∨ past.length + (r.buf.length + (StreamReader.content rest).length + rest.length) ≤ reads
  ends : whole → .error .eof ∈ past → r.buf = [] ∧ rest = []

theorem returned_ok (past : List (Except ReadError Data)) (bytes : Data) : returned (past ++ [.ok bytes]) = returned past ++ bytes := by
  simp [returned,Except.toOption]

theorem returned_error (past : List (Except ReadError Data)) (e : ReadError) : returned (past ++ [.error e]) = returned past := by
  simp [returned,Except.toOption]

theorem read_follows {whole : Prop} {total : Data} {reads : Nat} {past : List (Except ReadError Data)} {r : Reader} {size : Nat}
    (positive : 0 < size) (follows : ∃ rest, Follows A whole total reads past r rest) :
    ∃ rest, Follows A whole total reads (past ++ [(read A r size).2]) (read A r size).1 rest := by
  obtain ⟨rest,follows⟩ := follows
  have content := follows.content
  rcases read_cases follows.small follows.begins size with ⟨buffered,same⟩ | ⟨c,rest,src,empty,rfl,split_,same⟩ | ⟨e,empty,same,ends⟩
  · have some_ := length_pos_of_ne_nil buffered
    rw [same]
    refine ⟨rest,follows.small,?_,follows.begins,follows.body,fun w => ?_,fun w found => ?_⟩
    · dsimp only
      rw [returned_ok,← content,append_assoc,← append_assoc (take size r.buf),take_append_drop]
    · rcases follows.moves w with ⟨none,-⟩ | bound
      · exact absurd none buffered
      · refine .inr ?_
        simp only [length_append,length_singleton,length_drop]
        omega
    · rcases mem_append.mp found with old | new
      · exact absurd (follows.ends w old).1 buffered
      · simp at new
  · rw [same]
    have begins := follows.begins
    have body := follows.body
    have wired : wire A (c :: rest) = streamFrame A c.1 c.2 ++ wire A rest := rfl
    rw [split_,wired] at begins body
    refine ⟨rest,fun c' later => follows.small c' (mem_cons_of_mem c later),?_,(prefix_append_right_inj _).mp begins,
      fun w => append_cancel_left (body w),fun w => ?_,fun w found => ?_⟩
    · dsimp only
      rw [returned_ok,← content,empty,append_assoc,← append_assoc (take size c.2),take_append_drop]
      rfl
    · rcases follows.moves w with ⟨-,none⟩ | bound
      · cases none
      · refine .inr ?_
        simp only [empty,StreamReader.content,flatMap_cons,length_append,length_cons,length_nil,length_drop] at bound ⊢
        omega
    · rcases mem_append.mp found with old | new
      · exact absurd (follows.ends w old).2 (cons_ne_nil _ _)
      · simp at new
  · rw [same]
    refine ⟨rest,follows.small,?_, nil_prefix,fun w => ?_,fun w => .inl ?_,fun w _ => ?_⟩
    · rw [returned_error,← content,empty]
    · rw [(ends (follows.body w)).1]
      rfl
    · exact ⟨rfl,(ends (follows.body w)).1⟩
    · exact ⟨rfl,(ends (follows.body w)).1⟩

/-- However the body is cut into pieces and whatever the sizes of the reads, they return the chunks in order as far as the body
    goes. Of a whole body they have returned all once one of them has found the end, which one of any
    `(content chunks).length + chunks.length + 1` does. -/
theorem stream_read (A : Cipher) (chunks : List (Nonce 12 × Data)) (small : ∀ c ∈ chunks, c.2.length ≤ bufferSize)
    (pieces : List Data) (sizes : List Nat) (positive : ∀ n ∈ sizes, 0 < n) :
    (pieces.flatten <+: wire A chunks → returned (trace (read A) ⟨pieces,[]⟩ sizes) <+: content chunks) ∧
    (pieces.flatten = wire A chunks →
      (.error .eof ∈ trace (read A) ⟨pieces,[]⟩ sizes ∨ (content chunks).length + chunks.length ≤ sizes.length) →
        returned (trace (read A) ⟨pieces,[]⟩ sizes) = content chunks) := by
  have run (begins : pieces.flatten <+: wire A chunks) := @invariant_along _ _ _ (read A)
    (fun past r => ∃ rest, Follows A (pieces.flatten = wire A chunks) (content chunks) ((content chunks).length + chunks.length) past r rest)
    (fun _ n => 0 < n) (fun past r n => read_follows A) sizes [] ⟨pieces,[]⟩ (along_of_forall sizes (fun n member _ => positive n member) _)
    ⟨chunks,small,rfl,begins,id,fun _ => .inr (by simp),fun _ none => by cases none⟩
  simp only [nil_append] at run
  constructor
  · intro begins
    obtain ⟨rest,follows⟩ := run begins
    exact ⟨_,follows.content⟩
  · intro whole enough
    obtain ⟨rest,follows⟩ := run (whole ▸ prefix_rfl)
    have done : (final (read A) ⟨pieces,[]⟩ sizes).buf = [] ∧ content rest = [] := by
      rcases enough with found | many
      · obtain ⟨none,nothing⟩ := follows.ends whole found
        exact ⟨none,by rw [nothing]; rfl⟩
      · rcases follows.moves whole with ⟨none,nothing⟩ | bound
        · exact ⟨none,by rw [nothing]; rfl⟩
        · rw [length_trace] at bound
          exact ⟨length_eq_zero_iff.mp (by omega),length_eq_zero_iff.mp (by omega)⟩
    have all := follows.content
    rwa [done.1,done.2,append_nil,append_nil] at all

def twoChunks : List (Nonce 12 × Data) := [(zeroNonce 12,[1,2]),(zeroNonce 12,[3])]

/-- Two chunks, of which the first comes in two pieces, the second of them with the second chunk. -/
theorem stream_read_bytes :
    returned (trace (read Cipher.plain) ⟨[(wire Cipher.plain twoChunks).take 5,(wire Cipher.plain twoChunks).drop 5],[]⟩
      [1,2,1,1,1]) = [1,2,3] :=
  (stream_read Cipher.plain twoChunks (by decide) _ [1,2,1,1,1] (by decide)).2 (by simp) (.inr (by decide))

end TunnelCat.StreamReader
