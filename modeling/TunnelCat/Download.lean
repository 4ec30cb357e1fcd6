import TunnelCat.Bytes
import TunnelCat.Ideal
import TunnelCat.Runs

/-!
The download path in streaming mode: `streamToClient` of the exit (`snc-exit/handler.go`) and the stream loop
of the client (`snc/core/session.go`), which opens another stream when one breaks. The handler of a broken
stream goes on reading the socket, and what it reads is lost.
-/
namespace TunnelCat.Download
open Bytes Runs List

section
variable (A : Cipher)

variable (nonce : Nonce 12) (plain : List UInt8)

def sealTunnelData : List UInt8 := nonce.1 ++ A.encrypt nonce.1 plain

def streamFrame : List UInt8 :=
  beBytes 4 (sealTunnelData A nonce plain).length ++ sealTunnelData A nonce plain

def openFrame (frame : List UInt8) : Option (List UInt8) :=
  if frame.length < 12 then none else A.decrypt (frame.take 12) (frame.drop 12)

def bufferSize : Nat := 65536

/-- A `Read` of the `framedDecryptReader`: bytes, with what is left in its buffer and
    of the source; the source has not enough; or a frame that is refused. -/
inductive BodyRead
  | data (bytes buf src : List UInt8)
  | short
  | refused

def readBody (buf src : List UInt8) : BodyRead :=
  if buf ≠ [] then .data (buf.take bufferSize) (buf.drop bufferSize) src
  else if src.length < 4 then .short
  else
    let frameLen := beNat (src.take 4)
    if 1048576 < frameLen then .refused
    else if src.length < 4 + frameLen then .short
    else
      match openFrame A ((src.drop 4).take frameLen) with
      | none => .refused
      | some plain => .data (plain.take bufferSize) (plain.drop bufferSize) (src.drop (4 + frameLen))

theorem length_sealTunnelData :
    (sealTunnelData A nonce plain).length = 28 + plain.length := by
  rw [sealTunnelData,length_append,A.length_encrypt]
  omega

theorem openFrame_seal :
    openFrame A (sealTunnelData A nonce plain) = some plain := by
  grind [sealTunnelData,openFrame,A.decrypt_encrypt]

theorem readBody_frame {plain : List UInt8} (fits : plain.length ≤ bufferSize) (src : List UInt8) :
    readBody A [] (streamFrame A nonce plain ++ src) = .data plain [] src := by
  have sealed := length_sealTunnelData A nonce plain
  have small : 28 + plain.length ≤ 65564 := by
    unfold bufferSize at fits
    omega
  have four : (beBytes 4 (sealTunnelData A nonce plain).length).length = 4 := length_beBytes 4 _
  have size : beNat ((streamFrame A nonce plain ++ src).take 4) = 28 + plain.length := by
    rw [streamFrame,append_assoc,take_left' four,beNat_beBytes]
    omega
  have body : (streamFrame A nonce plain ++ src).drop 4 = sealTunnelData A nonce plain ++ src := by
    rw [streamFrame,append_assoc,drop_left' four]
  have length : (streamFrame A nonce plain ++ src).length = 4 + (28 + plain.length) + src.length := by
    rw [length_append,streamFrame,length_append,four,sealed]
  unfold readBody
  simp only [ne_eq,not_true_eq_false,if_false]
  rw [if_neg (by omega),size,if_neg (by omega),if_neg (by omega),body,take_left' sealed,openFrame_seal,
    ← drop_drop,body,drop_left' sealed]
  simp only [take_of_length_le fits,drop_of_length_le fits]

end

/-- A stream POST: what its handler wrote and the client has not read, whether the
    handler is in its loop, and whether the connection is broken. -/
structure Stream where
  wire : List UInt8
  serving : Bool
  broken : Bool

inductive Loop
  | opening (openErrors flaps : Nat)
  | reading (id : Nat) (buf : List UInt8) (flaps : Nat)
  | stopped
deriving DecidableEq

/-- One connection. Of the target: the bytes it sent that nothing has read, and whether
    it has closed. Of the exit: whether the pool has the session, and its `targetClosed`.
    The streams, by number. Of the client: the loop, and what stands before a `Read`. -/
structure Tunnel where
  socket : List UInt8
  finished : Bool
  pooled : Bool
  targetClosed : Bool
  streams : List Stream
  loop : Loop
  renewals : Nat
  dataChan : List (List UInt8)
  readBuf : List UInt8
  closed : Bool

/-- An open stream can be lost on its way back: the handler runs and the client sees an
    error. A handler's read takes what `count` allows of the bytes that are there. A cut
    leaves the client the first `kept` bytes of what is in flight. -/
inductive Event
  | targetSends (bytes : List UInt8)
  | targetCloses (reset : Bool)
  | poolClose
  | openStream (lost : Bool)
  | openFails
  | serve (id count : Nat)
  | idle (id : Nat)
  | cut (id kept : Nat)
  | receive
  | read (size : Nat)
  | close

/-- An event with what surrounds it: the nonce and whether sealing fails, whether the
    stream is younger than `streamMinLifetime`, whether its error is `io.EOF`, and
    whether a `select` takes the case of the closed connection. -/
structure Input where
  event : Event
  nonce : Nonce 12
  sealFails : Bool
  young : Bool
  eof : Bool
  selectsClosed : Bool

inductive Shown
  | sent (bytes : List UInt8)
  | got (bytes : List UInt8)
  | errClosed
  | quiet

def streamMaxFlaps : Nat := 5
def streamMaxOpenErrors : Nat := 5
def maxRenewals : Nat := 3

def Tunnel.setStream (t : Tunnel) (id : Nat) (st : Stream) : Tunnel := { t with streams := t.streams.set id st }

section
variable (A : Cipher) (chanDepth : Nat)

variable (t : Tunnel) (i : Input) (id : Nat)

/-- One turn of the handler's loop. The session of a connection that was closed is not
    in the pool any more, and its socket fails. -/
def streamToClient (count : Nat) : Tunnel :=
  match t.streams[id]? with
  | none => t
  | some st =>
    if !st.serving then t
    else if !t.pooled then t.setStream id { st with serving := false }
    else if t.socket = [] then
      -- the end of the target's bytes, or a timeout
      if t.finished then { t.setStream id { st with serving := false } with targetClosed := true } else t
    else
      let n := min (max 1 count) bufferSize
      let left : Tunnel := { t with socket := t.socket.drop n }
      if i.sealFails then { left.setStream id { st with serving := false } with targetClosed := true }
      -- the errors of the two writes are ignored
      else if st.broken then left
      else left.setStream id { st with wire := st.wire ++ streamFrame A i.nonce (t.socket.take n) }

def idle : Tunnel :=
  match t.streams[id]? with
  | none => t
  | some st => t.setStream id { st with serving := false }

def cut (kept : Nat) : Tunnel :=
  match t.streams[id]? with
  | none => t
  | some st => if st.broken then t else t.setStream id { st with wire := st.wire.take kept, broken := true }

def Tunnel.renew : Tunnel :=
  if t.renewals < maxRenewals then { t with renewals := t.renewals + 1, loop := .opening 0 0 }
  else { t with loop := .stopped }

def Tunnel.openError (openErrors : Nat) : Tunnel :=
  if streamMaxOpenErrors ≤ openErrors + 1 then t.renew else { t with loop := .opening (openErrors + 1) 0 }

def openStream (lost : Bool) : Tunnel :=
  match t.loop with
  | .opening openErrors flaps =>
    if t.closed then { t with loop := .stopped }
    else if t.pooled && !t.targetClosed then
      let started : Tunnel := { t with streams := t.streams ++ [⟨[],true,lost⟩] }
      if lost then started.openError openErrors
      else { started with loop := .reading t.streams.length [] flaps }
    else if lost then t.openError openErrors
    else { t with loop := .stopped }
  | _ => t

def openFails : Tunnel :=
  match t.loop with
  | .opening openErrors _ => if t.closed then { t with loop := .stopped } else t.openError openErrors
  | _ => t

def leave (st : Stream) (flaps : Nat) (eof : Bool) : Tunnel :=
  let left := t.setStream id { st with wire := [], broken := true }
  if !eof && i.young then
    if streamMaxFlaps ≤ flaps + 1 then left.renew else { left with loop := .opening 0 (flaps + 1) }
  else { left with loop := .opening 0 0 }

/-- The loop reads its stream. It waits for bytes as long as the stream is whole, and
    for room in the channel as long as the connection is not closed. -/
def receive : Tunnel :=
  match t.loop with
  | .reading id buf flaps =>
    match t.streams[id]? with
    | none => t
    | some st =>
      match readBody A buf st.wire with
      | .data bytes buf' wire =>
        let taken : Tunnel := { t.setStream id { st with wire := wire } with loop := .reading id buf' flaps }
        if bytes = [] then taken
        else if t.closed && (i.selectsClosed || chanDepth ≤ t.dataChan.length) then
          { t.setStream id { st with wire := [], broken := true } with loop := .stopped }
        else if chanDepth ≤ t.dataChan.length then t
        else { taken with dataChan := t.dataChan ++ [bytes] }
      | .refused => leave t i id st flaps false
      | .short =>
        if st.broken || t.closed then leave t i id st flaps i.eof
        else if st.serving then t
        else leave t i id st flaps true
  | _ => t

def read (size : Nat) : Tunnel × Shown :=
  if t.readBuf ≠ [] then ({ t with readBuf := t.readBuf.drop size },.got (t.readBuf.take size))
  else if t.closed && i.selectsClosed then (t,.errClosed)
  else
    match t.dataChan with
    | chunk :: rest => ({ t with dataChan := rest, readBuf := chunk.drop size },.got (chunk.take size))
    | [] => (t,if t.closed || t.loop = .stopped then .errClosed else .quiet)

def step : Tunnel × Shown :=
  match i.event with
  | .targetSends bytes =>
    if t.finished then (t,.quiet) else ({ t with socket := t.socket ++ bytes },.sent bytes)
  | .targetCloses reset => ({ t with finished := true, socket := if reset then [] else t.socket },.quiet)
  | .poolClose => ({ t with pooled := false },.quiet)
  | .openStream lost => (openStream t lost,.quiet)
  | .openFails => (openFails t,.quiet)
  | .serve id count => (streamToClient A t i id count,.quiet)
  | .idle id => (idle t id,.quiet)
  | .cut id kept => (cut t id kept,.quiet)
  | .receive => (receive A chanDepth t i,.quiet)
  | .read size => read t i size
  | .close => ({ t with closed := true },.quiet)

end

def start : Tunnel := ⟨[],false,true,false,[],.opening 0 0,0,[],[],false⟩

def Shown.sentBytes : Shown → List UInt8
  | .sent bytes => bytes
  | _ => []

def Shown.readBytes : Shown → List UInt8
  | .got bytes => bytes
  | _ => []

def sentBy (past : List Shown) : List UInt8 := past.flatMap Shown.sentBytes

def readBy (past : List Shown) : List UInt8 := past.flatMap Shown.readBytes

/-- A handler reads bytes only for the stream that the client has open, while it is
    whole, or when the client's loop is over; and when that stream breaks, all that is
    in flight still arrives. -/
def Careful (t : Tunnel) (i : Input) : Prop :=
  match i.event with
  | .serve id _ =>
    match t.loop, t.streams[id]? with
    | .stopped, _ => True
    | _, none => True
    | .reading id' _ _, some st => st.serving = false ∨ t.pooled = false ∨ t.socket = [] ∨ (id' = id ∧ st.broken = false)
    | .opening _ _, some st => st.serving = false ∨ t.pooled = false ∨ t.socket = []
  | .cut id kept =>
    match t.loop, t.streams[id]? with
    | .reading id' _ _, some st => id' = id → st.wire.length ≤ kept
    | _, _ => True
  | _ => True

instance (t : Tunnel) (i : Input) : Decidable (Careful t i) := by
  unfold Careful
  repeat' split
  all_goals infer_instance

section
variable (A : Cipher)

inductive Framed : List UInt8 → List UInt8 → Prop
  | nil : Framed [] []
  | cons (nonce : Nonce 12) {plain wire rest : List UInt8} (fits : plain.length ≤ bufferSize) (later : Framed wire rest) :
      Framed (streamFrame A nonce plain ++ wire) (plain ++ rest)

variable (past : List Shown) (t : Tunnel)

def Ahead (ahead : List UInt8) : Prop :=
  match t.loop with
  | .reading id buf _ => ∃ st rest, t.streams[id]? = some st ∧ Framed A st.wire rest ∧ ahead = buf ++ rest
  | _ => ahead = []

def Dead : Prop :=
  t.loop = .stopped ∨ t.finished = true ∧ t.socket = [] ∨
    t.targetClosed = true ∧
      ∀ id buf flaps, t.loop = .reading id buf flaps → ∀ st, t.streams[id]? = some st → st.serving = false

/-- Every byte that was sent was returned, or is on its way in its place; bytes are lost
    only when nothing comes after them. -/
def Flow (sent returned : List UInt8) (t : Tunnel) : Prop :=
  ∃ ahead lost, Ahead A t ahead ∧ (lost = [] ∨ Dead t) ∧
    sent = returned ++ (t.readBuf ++ (t.dataChan.flatten ++ (ahead ++ (lost ++ t.socket))))

variable {A} {wire rest buf lost : List UInt8} {st' : Stream} {flaps openErrors : Nat} {i : Input}

theorem Framed.append (framed : Framed A wire rest) (nonce : Nonce 12) {plain : List UInt8}
    (fits : plain.length ≤ bufferSize) : Framed A (wire ++ streamFrame A nonce plain) (rest ++ plain) := by
  induction framed with
  | nil => simpa using Framed.cons nonce fits .nil
  | cons nonce' fits' _ ih =>
    rw [append_assoc,append_assoc]
    exact .cons nonce' fits' ih

variable {t} {id : Nat}

theorem Ahead.setStream {ahead : List UInt8} (holds : Ahead A t ahead) {st : Stream}
    (found : t.streams[id]? = some st) (same : st'.wire = st.wire) : Ahead A (t.setStream id st') ahead := by
  unfold Ahead Tunnel.setStream at *
  cases loop : t.loop with
  | reading id' buf flaps =>
    grind
  | opening openErrors flaps => simpa [loop] using holds
  | stopped => simpa [loop] using holds

theorem Dead.setStream (dead : Dead t) {st : Stream} (found : t.streams[id]? = some st)
    (same : st.serving = false → st'.serving = false) : Dead (t.setStream id st') := by
  rcases dead with stopped | finished | ⟨closed,ended⟩
  · exact .inl stopped
  · exact .inr (.inl finished)
  · refine .inr (.inr ⟨closed,?_⟩)
    grind [Tunnel.setStream]

variable {sent returned : List UInt8}

theorem Flow.setStream (flow : Flow A sent returned t)
    {st : Stream} (found : t.streams[id]? = some st) (wire : st'.wire = st.wire)
    (serving : st.serving = false → st'.serving = false) : Flow A sent returned (t.setStream id st') := by
  obtain ⟨ahead,lost,holds,ends,order⟩ := flow
  exact ⟨ahead,lost,holds.setStream found wire,ends.imp_right (fun dead => dead.setStream found serving),order⟩

theorem Flow.markTargetClosed (flow : Flow A sent returned t) :
    Flow A sent returned { t with targetClosed := true } := by
  obtain ⟨ahead,lost,holds,ends,order⟩ := flow
  refine ⟨ahead,lost,holds,ends.imp_right ?_,order⟩
  rintro (stopped | finished | ⟨_,ended⟩)
  · exact .inl stopped
  · exact .inr (.inl finished)
  · exact .inr (.inr ⟨rfl,ended⟩)

theorem Flow.stopped {t t' : Tunnel} (flow : Flow A sent returned t)
    (stopped : t'.loop = .stopped) (readBuf : t'.readBuf = t.readBuf) (dataChan : t'.dataChan = t.dataChan)
    (gone : List UInt8) (socket : t.socket = gone ++ t'.socket) : Flow A sent returned t' := by
  obtain ⟨ahead,lost,_,_,order⟩ := flow
  refine ⟨[],ahead ++ (lost ++ gone),?_,.inr (.inl stopped),?_⟩
  · unfold Ahead
    rw [stopped]
  grind

variable {st : Stream}

theorem not_dead
    (loop : t.loop = .reading id buf flaps) (found : t.streams[id]? = some st) (serving : st.serving = true)
    (socket : t.socket ≠ []) : ¬ Dead t := by
  rintro (stopped | ⟨_,empty⟩ | ⟨_,ended⟩)
  · cases loop.symm.trans stopped
  · exact socket empty
  · cases serving.symm.trans (ended id buf flaps loop st found)

theorem Flow.write (flow : Flow A sent returned t) (loop : t.loop = .reading id buf flaps)
    (found : t.streams[id]? = some st) (serving : st.serving = true) (socket : t.socket ≠ []) (nonce : Nonce 12) {n : Nat}
    (fits : n ≤ bufferSize) :
    Flow A sent returned ({ t with socket := t.socket.drop n }.setStream id
      { st with wire := st.wire ++ streamFrame A nonce (t.socket.take n) }) := by
  obtain ⟨ahead,lost,holds,ends,order⟩ := flow
  have kept : lost = [] := ends.resolve_right (not_dead loop found serving socket)
  unfold Ahead at holds
  simp only [loop] at holds
  obtain ⟨st',rest,found',framed,rfl⟩ := holds
  cases found.symm.trans found'
  obtain ⟨inside,_⟩ := List.getElem?_eq_some_iff.mp found
  refine ⟨buf ++ (rest ++ t.socket.take n),[],?_,.inl rfl,?_⟩
  · have short : (t.socket.take n).length ≤ bufferSize := Nat.le_trans (length_take_le ..) fits
    simp only [loop]
    exact ⟨_,_,List.getElem?_set_self inside,framed.append nonce short,rfl⟩
  · rw [order,kept]
    show returned ++ (t.readBuf ++ (t.dataChan.flatten ++ ((buf ++ rest) ++ ([] ++ t.socket)))) =
      returned ++ (t.readBuf ++ (t.dataChan.flatten ++ ((buf ++ (rest ++ t.socket.take n)) ++ ([] ++ t.socket.drop n))))
    simp only [nil_append,append_assoc,take_append_drop]

theorem Flow.sealFails (flow : Flow A sent returned t) (loop : t.loop = .reading id buf flaps)
    (found : t.streams[id]? = some st) (n : Nat) :
    Flow A sent returned { ({ t with socket := t.socket.drop n } : Tunnel).setStream id { st with serving := false } with
      targetClosed := true } := by
  obtain ⟨ahead,lost,holds,_,order⟩ := flow
  have inside := (List.getElem?_eq_some_iff.mp found).1
  refine ⟨ahead,lost ++ t.socket.take n,holds.setStream found rfl,.inr (.inr (.inr ⟨rfl,?_⟩)),?_⟩
  · grind [Tunnel.setStream]
  · rw [order]
    show returned ++ (t.readBuf ++ (t.dataChan.flatten ++ (ahead ++ (lost ++ t.socket)))) =
      returned ++ (t.readBuf ++ (t.dataChan.flatten ++ (ahead ++ ((lost ++ t.socket.take n) ++ t.socket.drop n))))
    rw [append_assoc lost,take_append_drop]

theorem careful_serve {id count : Nat} (careful : Careful t i)
    (event : i.event = .serve id count) (found : t.streams[id]? = some st) (serving : st.serving = true)
    (pooled : t.pooled = true) (socket : t.socket ≠ []) :
    t.loop = .stopped ∨ ∃ buf flaps, t.loop = .reading id buf flaps ∧ st.broken = false := by
  unfold Careful at careful
  grind

variable (flow : Flow A sent returned t)
include flow

theorem streamToClient_flow
    {id count : Nat} (careful : Careful t i) (event : i.event = .serve id count) :
    Flow A sent returned (streamToClient A t i id count) := by
  unfold streamToClient
  cases found : t.streams[id]? with
  | none => exact flow
  | some st =>
    dsimp only
    by_cases serving : st.serving = true
    swap
    · rw [if_pos (by simp [serving])]
      exact flow
    rw [if_neg (by simp [serving])]
    have ended : Flow A sent returned (t.setStream id { st with serving := false }) :=
      flow.setStream found rfl (fun _ => rfl)
    by_cases pooled : t.pooled = true
    swap
    · rw [if_pos (by simp [pooled])]
      exact ended
    rw [if_neg (by simp [pooled])]
    by_cases socket : t.socket = []
    · split_ifs
      · exact ended.markTargetClosed
      · exact flow
    rw [if_neg socket]
    have fits : min (max 1 count) bufferSize ≤ bufferSize := Nat.min_le_right ..
    have split := (take_append_drop (min (max 1 count) bufferSize) t.socket).symm
    rcases careful_serve careful event found serving pooled socket with stopped | ⟨buf,flaps,loop,whole⟩
    · split_ifs
      · exact flow.stopped stopped rfl rfl _ split
      · exact flow.stopped stopped rfl rfl _ split
      · exact flow.stopped stopped rfl rfl _ split
    · by_cases unsealed : i.sealFails = true
      · rw [if_pos unsealed]
        exact flow.sealFails loop found _
      grind [flow.write]

theorem idle_flow (id : Nat) :
    Flow A sent returned (idle t id) := by
  grind [idle,flow.setStream]

theorem cut_flow {id kept : Nat}
    (careful : Careful t i) (event : i.event = .cut id kept) : Flow A sent returned (cut t id kept) := by
  unfold cut
  cases found : t.streams[id]? with
  | none => exact flow
  | some st =>
    dsimp only
    by_cases broken : st.broken = true
    · rw [if_pos broken]
      exact flow
    rw [if_neg broken]
    unfold Careful at careful
    rw [event] at careful
    simp only [found] at careful
    by_cases whole : st.wire.length ≤ kept
    · exact flow.setStream found (take_of_length_le whole) (fun ended => ended)
    -- what is cut off is not what the client reads
    obtain ⟨ahead,lost,holds,ends,order⟩ := flow
    refine ⟨ahead,lost,?_,ends.imp_right (fun dead => dead.setStream found (fun ended => ended)),order⟩
    unfold Ahead Tunnel.setStream at *
    cases loop : t.loop with
    | reading id' buf flaps =>
      simp only [loop] at holds careful ⊢
      grind
    | opening openErrors flaps => simpa [loop] using holds
    | stopped => simpa [loop] using holds

omit flow

def Between (sent returned : List UInt8) (t : Tunnel) : Prop :=
  ∃ lost, (lost = [] ∨ t.finished = true ∧ t.socket = [] ∨ t.targetClosed = true) ∧
    sent = returned ++ (t.readBuf ++ (t.dataChan.flatten ++ (lost ++ t.socket)))

theorem between_of {sent returned : List UInt8} (ends : lost = [] ∨ Dead t) (loop : t.loop ≠ .stopped)
    (order : sent = returned ++ (t.readBuf ++ (t.dataChan.flatten ++ (lost ++ t.socket)))) : Between sent returned t := by
  refine ⟨lost,?_,order⟩
  rcases ends with kept | stopped | finished | ⟨closed,_⟩
  · exact .inl kept
  · exact absurd stopped loop
  · exact .inr (.inl finished)
  · exact .inr (.inr closed)

theorem Flow.opening (flow : Flow A sent returned t)
    (loop : t.loop = .opening openErrors flaps) : Between sent returned t := by
  obtain ⟨ahead,lost,holds,ends,order⟩ := flow
  grind [Ahead,between_of]

variable (between : Between sent returned t)
include between

theorem Between.opening (loop : t.loop = .opening openErrors flaps) : Flow A sent returned t := by
  obtain ⟨lost,ends,order⟩ := between
  refine ⟨[],lost,?_,ends.imp_right ?_,order⟩
  · unfold Ahead
    rw [loop]
  · rintro (finished | closed)
    · exact .inr (.inl finished)
    · refine .inr (.inr ⟨closed,?_⟩)
      intro id buf flaps' reading
      cases loop.symm.trans reading

theorem Between.stopped
    (loop : t.loop = .stopped) : Flow A sent returned t := by
  obtain ⟨lost,_,order⟩ := between
  refine ⟨[],lost,?_,.inr (.inl loop),order⟩
  unfold Ahead
  rw [loop]

theorem Between.renew :
    Flow A sent returned t.renew := by
  unfold Tunnel.renew
  split_ifs
  · exact Between.opening (t := { t with renewals := t.renewals + 1, loop := .opening 0 0 }) between rfl
  · exact Between.stopped (t := { t with loop := .stopped }) between rfl

theorem Between.openError
    (openErrors : Nat) : Flow A sent returned (t.openError openErrors) := by
  unfold Tunnel.openError
  split_ifs
  · exact between.renew
  · exact Between.opening (t := { t with loop := .opening (openErrors + 1) 0 }) between rfl

theorem Between.reading
    (targetOpen : t.targetClosed = false) (lost : Bool) (flaps : Nat) :
    Flow A sent returned
      { t with streams := t.streams ++ [⟨[],true,lost⟩], loop := .reading t.streams.length [] flaps } := by
  obtain ⟨missing,ends,order⟩ := between
  refine ⟨[],missing,?_,ends.imp_right ?_,order⟩
  · exact ⟨⟨[],true,lost⟩,[],by simp,.nil,rfl⟩
  · rintro (finished | closed)
    · exact .inr (.inl finished)
    · cases targetOpen.symm.trans closed

omit between

theorem openStream_flow (flow : Flow A sent returned t) (lost : Bool) :
    Flow A sent returned (openStream t lost) := by
  unfold openStream
  cases loop : t.loop with
  | reading id buf flaps => exact flow
  | stopped => exact flow
  | opening openErrors flaps =>
    have between := flow.opening loop
    dsimp only
    by_cases closed : t.closed = true
    · rw [if_pos closed]
      exact Between.stopped (t := { t with loop := .stopped }) between rfl
    rw [if_neg closed]
    by_cases available : (t.pooled && !t.targetClosed) = true
    · rw [if_pos available]
      have targetOpen : t.targetClosed = false := by simpa using (Bool.and_eq_true_iff.mp available).2
      cases lost with
      | true => exact Between.openError (t := { t with streams := t.streams ++ [⟨[],true,true⟩] }) between openErrors
      | false => exact between.reading targetOpen false flaps
    rw [if_neg available]
    cases lost with
    | true => exact between.openError openErrors
    | false => exact Between.stopped (t := { t with loop := .stopped }) between rfl

theorem openFails_flow (flow : Flow A sent returned t) :
    Flow A sent returned (openFails t) := by
  unfold openFails
  cases loop : t.loop with
  | reading id buf flaps => exact flow
  | stopped => exact flow
  | opening openErrors flaps =>
    have between := flow.opening loop
    split_ifs
    · exact Between.stopped (t := { t with loop := .stopped }) between rfl
    · exact between.openError openErrors

theorem leave_flow (between : Between sent returned t) (i : Input) (id : Nat)
    (st : Stream) (flaps : Nat) (eof : Bool) : Flow A sent returned (leave t i id st flaps eof) := by
  have left : Between sent returned (t.setStream id { st with wire := [], broken := true }) := between
  unfold leave
  split_ifs
  · exact left.renew
  · exact Between.opening (t := { t.setStream id { st with wire := [], broken := true } with
      loop := .opening 0 (flaps + 1) }) left rfl
  · exact Between.opening (t := { t.setStream id { st with wire := [], broken := true } with
      loop := .opening 0 0 }) left rfl

theorem Framed.read (framed : Framed A wire rest) (buf : List UInt8) :
    (buf ++ rest = [] ∧ readBody A buf wire = .short) ∨
      ∃ bytes buf' wire' rest', readBody A buf wire = .data bytes buf' wire' ∧ Framed A wire' rest' ∧
        buf ++ rest = bytes ++ (buf' ++ rest') := by
  by_cases empty : buf = []
  · subst empty
    cases framed with
    | nil => exact .inl ⟨rfl,rfl⟩
    | cons nonce fits later => exact .inr ⟨_,[],_,_,readBody_frame A nonce fits _,later,rfl⟩
  grind [readBody,take_append_drop]

theorem taken_flow {sent returned : List UInt8} (ends : lost = [] ∨ Dead t) {id : Nat}
    {bytes buf' : List UInt8} (loop : t.loop = .reading id buf flaps)
    (found : t.streams[id]? = some st) (framed : Framed A wire rest)
    (order : sent = returned ++ (t.readBuf ++ (t.dataChan.flatten ++ (bytes ++ (buf' ++ rest) ++ (lost ++ t.socket)))))
    {chan : List (List UInt8)} (pushed : chan.flatten = t.dataChan.flatten ++ bytes) :
    Flow A sent returned { t.setStream id { st with wire := wire } with
      loop := .reading id buf' flaps, dataChan := chan } := by
  have inside := (List.getElem?_eq_some_iff.mp found).1
  refine ⟨buf' ++ rest,lost,?_,ends.imp_right ?_,?_⟩
  · exact ⟨_,rest,List.getElem?_set_self inside,framed,rfl⟩
  · rintro (stopped | finished | ⟨closed,ended⟩)
    · cases loop.symm.trans stopped
    · exact .inr (.inl finished)
    · refine .inr (.inr ⟨closed,?_⟩)
      intro id' buf'' flaps' reading now found'
      cases reading
      cases (List.getElem?_set_self inside).symm.trans found'
      exact ended id buf flaps loop st found
  · rw [order]
    show returned ++ (t.readBuf ++ (t.dataChan.flatten ++ (bytes ++ (buf' ++ rest) ++ (lost ++ t.socket)))) =
      returned ++ (t.readBuf ++ (chan.flatten ++ (buf' ++ rest ++ (lost ++ t.socket))))
    rw [pushed]
    simp only [append_assoc]

theorem receive_flow (flow : Flow A sent returned t) (chanDepth : Nat)
    (i : Input) : Flow A sent returned (receive A chanDepth t i) := by
  unfold receive
  cases loop : t.loop with
  | opening openErrors flaps => exact flow
  | stopped => exact flow
  | reading id buf flaps =>
    have same := flow
    obtain ⟨ahead,lost,holds,ends,order⟩ := same
    unfold Ahead at holds
    simp only [loop] at holds
    obtain ⟨st,rest,found,framed,rfl⟩ := holds
    simp only [found]
    rcases framed.read buf with ⟨nothing,short⟩ | ⟨bytes,buf',wire,rest',data,framed',split⟩
    · rw [nothing] at order
      have between : Between sent returned t := between_of ends (by simp [loop]) order
      rw [short]
      dsimp only
      split_ifs
      · exact leave_flow between i id st flaps _
      · exact flow
      · exact leave_flow between i id st flaps _
    · rw [split] at order
      rw [data]
      dsimp only
      by_cases empty : bytes = []
      · grind [taken_flow,Tunnel.setStream]
      rw [if_neg empty]
      by_cases dropped : (t.closed && (i.selectsClosed || decide (chanDepth ≤ t.dataChan.length))) = true
      · rw [if_pos dropped]
        exact flow.stopped rfl rfl rfl [] rfl
      rw [if_neg dropped]
      by_cases full : chanDepth ≤ t.dataChan.length
      · rw [if_pos full]
        exact flow
      · rw [if_neg full]
        exact taken_flow ends loop found framed' order (by simp)

theorem read_flow (flow : Flow A sent returned t) (i : Input) (size : Nat) :
    Flow A sent (returned ++ (read t i size).2.readBytes) (read t i size).1 := by
  have unread : Flow A sent (returned ++ []) t := by
    rw [append_nil]
    exact flow
  unfold read
  by_cases buffered : t.readBuf ≠ []
  · rw [if_pos buffered]
    obtain ⟨ahead,lost,holds,ends,order⟩ := flow
    refine ⟨ahead,lost,holds,ends,?_⟩
    show sent = (returned ++ t.readBuf.take size) ++ (t.readBuf.drop size ++ _)
    rw [append_assoc,← append_assoc (t.readBuf.take size),take_append_drop]
    exact order
  rw [if_neg buffered]
  by_cases refused : (t.closed && i.selectsClosed) = true
  · rw [if_pos refused]
    exact unread
  rw [if_neg refused]
  have empty : t.readBuf = [] := not_not.mp buffered
  cases chan : t.dataChan with
  | nil =>
    split_ifs
    · exact unread
    · exact unread
  | cons chunk rest =>
    obtain ⟨ahead,lost,holds,ends,order⟩ := flow
    refine ⟨ahead,lost,holds,ends,?_⟩
    show sent = (returned ++ chunk.take size) ++ (chunk.drop size ++ (rest.flatten ++ (ahead ++ (lost ++ t.socket))))
    grind [take_append_drop]

theorem read_sentBytes (t : Tunnel) (i : Input) (size : Nat) : (read t i size).2.sentBytes = [] := by
  unfold read
  by_cases buffered : t.readBuf ≠ []
  · rw [if_pos buffered]
    rfl
  rw [if_neg buffered]
  by_cases refused : (t.closed && i.selectsClosed) = true
  · rw [if_pos refused]
    rfl
  rw [if_neg refused]
  cases t.dataChan with
  | nil =>
    split_ifs <;> rfl
  | cons chunk rest => rfl

theorem flow_start : Flow A [] [] start := ⟨[],[],rfl,.inl rfl,rfl⟩

theorem sentBy_append (o : Shown) : sentBy (past ++ [o]) = sentBy past ++ o.sentBytes := by
  simp [sentBy]

theorem readBy_append (o : Shown) : readBy (past ++ [o]) = readBy past ++ o.readBytes := by
  simp [readBy]

theorem targetSends_flow (flow : Flow A sent returned t)
    (unfinished : t.finished = false) (bytes : List UInt8) :
    Flow A (sent ++ bytes) returned { t with socket := t.socket ++ bytes } := by
  obtain ⟨ahead,lost,holds,ends,order⟩ := flow
  refine ⟨ahead,lost,holds,ends.imp_right ?_,?_⟩
  · rintro (stopped | ⟨finished,_⟩ | closed)
    · exact .inl stopped
    · cases unfinished.symm.trans finished
    · exact .inr (.inr closed)
  · rw [order]
    simp only [append_assoc]

theorem targetCloses_flow (flow : Flow A sent returned t) (reset : Bool) :
    Flow A sent returned { t with finished := true, socket := if reset then [] else t.socket } := by
  obtain ⟨ahead,lost,holds,ends,order⟩ := flow
  cases reset with
  | true =>
    refine ⟨ahead,lost ++ t.socket,holds,.inr (.inr (.inl ⟨rfl,rfl⟩)),?_⟩
    rw [order]
    simp
  | false =>
    refine ⟨ahead,lost,holds,ends.imp_right ?_,order⟩
    rintro (stopped | ⟨_,empty⟩ | closed)
    · exact .inl stopped
    · exact .inr (.inl ⟨rfl,empty⟩)
    · exact .inr (.inr closed)

variable (A)

theorem step_flow (chanDepth : Nat) (past : List Shown) (t : Tunnel) (i : Input) (careful : Careful t i)
    (flow : Flow A (sentBy past) (readBy past) t) :
    Flow A (sentBy (past ++ [(step A chanDepth t i).2])) (readBy (past ++ [(step A chanDepth t i).2]))
      (step A chanDepth t i).1 := by
  rw [sentBy_append,readBy_append]
  have quiet : ∀ {t'}, Flow A (sentBy past) (readBy past) t' →
      Flow A (sentBy past ++ Shown.quiet.sentBytes) (readBy past ++ Shown.quiet.readBytes) t' := by
    simp [Shown.sentBytes,Shown.readBytes]
  unfold step
  cases event : i.event with
  | targetSends bytes =>
    grind [Shown.sentBytes,Shown.readBytes,targetSends_flow]
  | targetCloses reset => exact quiet (targetCloses_flow flow reset)
  | poolClose => exact quiet flow
  | openStream lost => exact quiet (openStream_flow flow lost)
  | openFails => exact quiet (openFails_flow flow)
  | serve id count => exact quiet (streamToClient_flow flow careful event)
  | idle id => exact quiet (idle_flow flow id)
  | cut id kept => exact quiet (cut_flow flow careful event)
  | receive => exact quiet (receive_flow flow chanDepth i)
  | read size =>
    rw [read_sentBytes,append_nil]
    exact read_flow flow i size
  | close => exact quiet flow

/-- In every careful run the bytes that the `Read`s returned are the first of those that
    the target sent. -/
theorem download_exact (chanDepth : Nat) (inputs : List Input) (careful : Along (step A chanDepth) Careful start inputs) :
    readBy (trace (step A chanDepth) start inputs) <+: sentBy (trace (step A chanDepth) start inputs) := by
  have flow := invariant_along (step_flow A chanDepth) inputs [] start careful flow_start
  obtain ⟨ahead,lost,_,_,order⟩ := flow
  rw [nil_append] at order
  exact ⟨_,order.symm⟩

end

def plainly (event : Event) : Input := ⟨event,zeroNonce 12,false,false,false,false⟩

def reopened : List Input := [.openStream false,.targetSends [1],.serve 0 1,.receive,.cut 0 0,.receive,.openStream false,
  .targetSends [2],.serve 1 1,.receive,.read 1,.read 1].map plainly

theorem reopened_exact :
    Along (step Cipher.plain 64) Careful start reopened ∧
    readBy (trace (step Cipher.plain 64) start reopened) = [1,2] ∧
    readBy (trace (step Cipher.plain 64) start reopened) <+: sentBy (trace (step Cipher.plain 64) start reopened) :=
  ⟨by decide +kernel,by decide +kernel,download_exact Cipher.plain 64 reopened (by decide +kernel)⟩

def eaten : List Input := [.openStream false,.cut 0 0,.receive,.openStream false,.targetSends [1],.serve 0 1,
  .targetSends [2],.serve 1 1,.receive,.read 1].map plainly

/-- The client reads the second byte of the target and never the first. -/
theorem download_gap :
    ¬ ∀ (A : Cipher) (chanDepth : Nat) (inputs : List Input),
      readBy (trace (step A chanDepth) start inputs) <+: sentBy (trace (step A chanDepth) start inputs) := by
  intro whole
  have gap : ¬ readBy (trace (step Cipher.plain 64) start eaten) <+:
      sentBy (trace (step Cipher.plain 64) start eaten) := by
    decide +kernel
  exact gap (whole Cipher.plain 64 eaten)

end TunnelCat.Download
