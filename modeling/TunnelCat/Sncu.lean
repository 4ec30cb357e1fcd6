import Mathlib.Logic.Function.Basic
import TunnelCat.Tunnel

/-!
A client that polls an exit by SNCU datagrams (`snc/core/udp_relay.go`, `snc/core/session.go`,
`snc-exit/udp_tunnel.go`). The exit handles each datagram that arrives by itself, so a payload is written for
each copy.
-/
namespace TunnelCat.Sncu
open Frames Egress HostPort Runs List
open Tunnel (Pool Request Call Effect Frame sncuHandle)

/-- The arguments of one `send` of a connection. A datagram has no room for a target that is
    too long for its length field. -/
structure Send where
  connID : ConnID
  seq : Nat
  target : List UInt8
  payload : List UInt8
  fits : target.length < 65536
deriving DecidableEq

/-- A request, sealed under the key of the token. -/
structure Datagram where
  reqID : UInt32
  token : Text
  send : Send
deriving DecidableEq

variable (d : Datagram)

def Datagram.request : Request :=
  ⟨d.token,some (buildUploadPlain d.send.connID d.send.seq d.send.target d.send.payload)⟩

def Send.frame (m : Send) : UploadFrame := ⟨m.connID,m.seq % 2 ^ 32,m.target,m.payload⟩

theorem request_frame : d.request.frame = some (.upload d.send.frame) :=
  Tunnel.readFrame_upload (parse_build d.send.connID d.send.seq d.send.target d.send.payload d.send.fits)

structure Response where
  reqID : UInt32
  token : Text
  status : Nat
  data : List UInt8

def udpRelayRetries : Nat := 3

inductive Caller
  | write
  | read (r : Nat)
deriving DecidableEq

structure Waiting where
  datagram : Datagram
  attempt : Nat
  caller : Caller

inductive Phase
  | polling
  | waiting (reqID : UInt32)
  | got (data : List UInt8)
deriving DecidableEq

structure Reading where
  connID : ConnID
  size : Nat
  phase : Phase

/-- `sent` and `answers` have every datagram that was ever sent, `handlers` the running
    goroutines of the exit. The last five fields are records that the code does not keep: the
    sends that have arrived, those that were written to their target, in this order, how often
    a connection was dialled under an id, what was taken from the first target of an id, and what
    the `Read`s have returned. -/
structure Net where
  pending : Table UInt32 Waiting := ∅
  reads : Table Nat Reading := ∅
  readBuf : ConnID → List UInt8 := fun _ => []
  sent : List Datagram := []
  answers : List Response := []
  pool : Pool := ∅
  handlers : List Datagram := []
  arrived : List Send := []
  wrote : List Send := []
  opens : ConnID → Nat := fun _ => 0
  taken : ConnID → List UInt8 := fun _ => []
  returned : ConnID → List UInt8 := fun _ => []

variable (s : Net)

/-- `RoundTrip` up to its first wait. It draws another id while this one is in use. -/
def roundTrip (d : Datagram) (caller : Caller) : Net :=
  if (s.pending.lookup d.reqID).isSome then s
  else { s with pending := s.pending.insert d.reqID ⟨d,1,caller⟩, sent := s.sent ++ [d] }

def returns (w : Waiting) (data : List UInt8) : Net :=
  let s := { s with pending := s.pending.erase w.datagram.reqID }
  match w.caller with
  | .write =>
    { s with readBuf := Function.update s.readBuf w.datagram.send.connID (s.readBuf w.datagram.send.connID ++ data) }
  | .read r =>
    match s.reads.lookup r with
    | none => s
    | some rd =>
      { s with reads := s.reads.insert r { rd with phase := if data = [] then .polling else .got data } }

def timeout (reqID : UInt32) : Net :=
  match s.pending.lookup reqID with
  | none => s
  | some w =>
    if w.attempt < udpRelayRetries then
      { s with pending := s.pending.insert reqID { w with attempt := w.attempt + 1 }, sent := s.sent ++ [w.datagram] }
    else returns s w []

def answered (resp : Response) : Net :=
  match s.pending.lookup resp.reqID with
  | none => s
  | some w => returns s w (if resp.status = 200 ∧ resp.token = w.datagram.token then resp.data else [])

def read (r : Nat) (connID : ConnID) (size : Nat) : Net :=
  if s.readBuf connID ≠ [] then
    { s with
      readBuf := Function.update s.readBuf connID ((s.readBuf connID).drop size)
      returned := Function.update s.returned connID (s.returned connID ++ (s.readBuf connID).take size) }
  else if (s.reads.lookup r).isSome then s
  else { s with reads := s.reads.insert r ⟨connID,size,.polling⟩ }

theorem noTarget_fits : ([] : List UInt8).length < 65536 := by decide

def poll (r : Nat) (reqID : UInt32) (token : Text) (seq : Nat) : Net :=
  match s.reads.lookup r with
  | none => s
  | some rd =>
    if rd.phase = .polling ∧ (s.pending.lookup reqID).isNone then
      { roundTrip s ⟨reqID,token,⟨rd.connID,seq,[],[],noTarget_fits⟩⟩ (.read r) with
        reads := s.reads.insert r { rd with phase := .waiting reqID } }
    else s

def finish (r : Nat) : Net :=
  match s.reads.lookup r with
  | some ⟨connID, size, .got data⟩ =>
    { s with
      reads := s.reads.erase r
      readBuf := Function.update s.readBuf connID (s.readBuf connID ++ data.drop size)
      returned := Function.update s.returned connID (s.returned connID ++ data.take size) }
  | _ => s

def returnedData (effects : List Effect) : List UInt8 :=
  effects.flatMap (fun | .returned _ data => data | _ => [])

def wroteAny (effects : List Effect) : Bool :=
  effects.any (fun | .wrote _ _ => true | _ => false)

def opensAfter (pool : Pool) (connID : ConnID) : ConnID → Nat :=
  if (s.pool.lookup connID).isNone ∧ (pool.lookup connID).isSome then
    Function.update s.opens connID (s.opens connID + 1)
  else s.opens

def handle (S : Strings) (s : Net) (cfg : Config) (a : Call) (d : Datagram) : Net :=
  let (pool, answer) := sncuHandle S cfg a s.pool d.request
  let data := returnedData answer.effects
  let opens := opensAfter s pool d.send.connID
  { s with
    pool := pool
    answers := s.answers ++ [⟨d.reqID,d.token,answer.status,data⟩]
    wrote := if wroteAny answer.effects then s.wrote ++ [d.send] else s.wrote
    opens := opens
    taken :=
      if opens d.send.connID = 1 then Function.update s.taken d.send.connID (s.taken d.send.connID ++ data)
      else s.taken }

/-- What can happen: the client writes, polls and reads, waits end, datagrams and answers
    arrive, the exit handles what has arrived, evicts a session or loses a target. -/
inductive Input
  | roundTrip (d : Datagram)
  | timeout (reqID : UInt32)
  | fails (reqID : UInt32)
  | read (r : Nat) (connID : ConnID) (size : Nat)
  | poll (r : Nat) (reqID : UInt32) (token : Text) (seq : Nat)
  | finish (r : Nat)
  | arrives (k : Nat)
  | handles (k : Nat) (cfg : Config) (a : Call)
  | answered (k : Nat)
  | evict (connID : ConnID)
  | reset (connID : ConnID)

def next (S : Strings) (s : Net) : Input → Net
  | .roundTrip d => roundTrip s d .write
  | .timeout reqID => timeout s reqID
  | .fails reqID => match s.pending.lookup reqID with
    | none => s
    | some w => returns s w []
  | .read r connID size => read s r connID size
  | .poll r reqID token seq => poll s r reqID token seq
  | .finish r => finish s r
  | .arrives k => match s.sent[k]? with
    | none => s
    | some d => { s with handlers := s.handlers ++ [d], arrived := s.arrived ++ [d.send] }
  | .handles k cfg a => match s.handlers[k]? with
    | none => s
    | some d => handle S { s with handlers := s.handlers.eraseIdx k } cfg a d
  | .answered k => match s.answers[k]? with
    | none => s
    | some resp => answered s resp
  | .evict connID => { s with pool := s.pool.erase connID }
  | .reset connID => { s with pool := Tunnel.resetConn s.pool connID }

def step (S : Strings) (s : Net) (i : Input) : Net × Unit := (next S s i,())

section
variable {S : Strings} {cfg : Config} {a : Call} {pool : Pool}
variable {p : Tunnel.Pooled} {f : UploadFrame} {conn : Tunnel.Conn} {data : List UInt8} {d : Datagram}

theorem exchange_wrote
    (shown : Effect.wrote conn data ∈ (Tunnel.exchange a pool p f).2.effects) : f.payload ≠ [] := by
  grind [Tunnel.exchange]

theorem exchange_returned
    (shown : Effect.returned conn data ∈ (Tunnel.exchange a pool p f).2.effects) :
    f.payload = [] ∧ f.seq ≠ 0 ∧ data = a.received := by
  grind [Tunnel.exchange]

theorem sncuFrame_effects {e : Effect}
    (shown : e ∈ (Tunnel.sncuFrame S cfg a pool (some (.upload f))).2.effects) (moves : ∀ host port, e ≠ .dialed host port) :
    ∃ pool' p, e ∈ (Tunnel.exchange a pool' p f).2.effects ∧ (f.seq ≠ 0 → pool.lookup f.connID = some p) := by
  simp only [Tunnel.sncuFrame] at shown
  grind [Tunnel.sncuConnect,Tunnel.send404,Tunnel.getOrCreate,Tunnel.get_eq_some]

theorem sncuHandle_effects {e : Effect} (shown : e ∈ (sncuHandle S cfg a pool d.request).2.effects)
    (moves : ∀ host port, e ≠ .dialed host port) :
    ∃ pool' p, e ∈ (Tunnel.exchange a pool' p d.send.frame).2.effects ∧
      (d.send.frame.seq ≠ 0 → pool.lookup d.send.connID = some p) := by
  unfold sncuHandle at shown
  cases verdict : a.verdict with
  | denied => simp [verdict,Tunnel.send404] at shown
  | transient => simp [verdict] at shown
  | accepted =>
    simp only [verdict,request_frame] at shown
    exact sncuFrame_effects shown moves

theorem handle_wrote (wrote : wroteAny (sncuHandle S cfg a pool d.request).2.effects = true) :
    d.send.payload ≠ [] := by
  obtain ⟨e,shown,writes⟩ := any_eq_true.mp wrote
  cases e with
  | wrote conn data =>
    obtain ⟨_,_,exchanged,_⟩ := sncuHandle_effects shown (fun _ _ same => by cases same)
    exact exchange_wrote exchanged
  | dialed host port => simp at writes
  | returned conn data => simp at writes

/-- Bytes come from a target only in answer to a poll of a connection of the pool, when the
    target has sent some. -/
theorem handle_returned (data : returnedData (sncuHandle S cfg a pool d.request).2.effects ≠ []) :
    d.send.payload = [] ∧ a.received ≠ [] ∧ (pool.lookup d.send.connID).isSome := by
  unfold returnedData at data
  simp only [ne_eq,flatMap_eq_nil_iff,not_forall] at data
  obtain ⟨e,shown,bytes⟩ := data
  cases e with
  | returned conn data =>
    obtain ⟨_,p,exchanged,found⟩ := sncuHandle_effects shown (fun _ _ same => by cases same)
    obtain ⟨payload,later,same⟩ := exchange_returned exchanged
    exact ⟨payload,same ▸ bytes,by simp [found later]⟩
  | dialed host port => simp at bytes
  | wrote conn data => simp at bytes

end

/-- Of two payloads written to the target of a connection the later one has the greater
    number, so none is written twice. -/
def UploadsOrdered : Prop :=
  s.wrote.Pairwise (fun m m' => m.connID = m'.connID → m.seq < m'.seq)

/-- A datagram with a payload arrives after those with lower numbers of its connection only,
    and when these have been handled. -/
def ArrivesInOrder : Input → Prop
  | .arrives k => ∀ d ∈ s.sent[k]?, d.send.payload ≠ [] →
      (∀ m ∈ s.arrived, m.connID = d.send.connID → m.payload ≠ [] → m.seq < d.send.seq) ∧
        ∀ h ∈ s.handlers, h.send.connID = d.send.connID → h.send.payload = []
  | _ => True

instance ArrivesInOrder.decidable (s : Net) : ∀ i, Decidable (ArrivesInOrder s i)
  | .arrives k => by unfold ArrivesInOrder; infer_instance
  | .roundTrip _ | .timeout _ | .fails _ | .read _ _ _ | .poll _ _ _ _ | .finish _ | .handles _ _ _ | .answered _
  | .evict _ | .reset _ => isTrue trivial

structure Tidy (s : Net) : Prop where
  writtenArrived : ∀ m ∈ s.wrote, m ∈ s.arrived ∧ m.payload ≠ []
  runningArrived : ∀ h ∈ s.handlers, h.send ∈ s.arrived
  single : s.handlers.Pairwise
    (fun h h' => h.send.connID = h'.send.connID → h.send.payload = [] ∨ h'.send.payload = [])
  later : ∀ m ∈ s.wrote, ∀ h ∈ s.handlers, m.connID = h.send.connID → h.send.payload ≠ [] → m.seq < h.send.seq
  ordered : UploadsOrdered s

structure SameExit (s s' : Net) : Prop where
  wrote : s'.wrote = s.wrote
  arrived : s'.arrived = s.arrived
  handlers : s'.handlers = s.handlers

variable {s} {d}

theorem Tidy.of_same {s' : Net} (tidy : Tidy s) (same : SameExit s s') : Tidy s' := by
  obtain ⟨writtenArrived,runningArrived,single,later,ordered⟩ := tidy
  obtain ⟨wrote,arrived,handlers⟩ := same
  refine ⟨?_,?_,?_,?_,?_⟩
  · rwa [wrote,arrived]
  · rwa [handlers,arrived]
  · rwa [handlers]
  · rwa [wrote,handlers]
  · rwa [UploadsOrdered,wrote]

theorem roundTrip_exit (s : Net) (d : Datagram) (caller : Caller) : SameExit s (roundTrip s d caller) := by
  unfold roundTrip
  split_ifs <;> exact ⟨rfl,rfl,rfl⟩

theorem returns_exit (s : Net) (w : Waiting) (data : List UInt8) : SameExit s (returns s w data) := by
  unfold returns
  cases w.caller with
  | write => exact ⟨rfl,rfl,rfl⟩
  | read r =>
    dsimp only
    cases s.reads.lookup r <;> exact ⟨rfl,rfl,rfl⟩

theorem timeout_exit (s : Net) (reqID : UInt32) : SameExit s (timeout s reqID) := by
  unfold timeout
  cases s.pending.lookup reqID with
  | none => exact ⟨rfl,rfl,rfl⟩
  | some w =>
    dsimp only
    split_ifs
    · exact ⟨rfl,rfl,rfl⟩
    · exact returns_exit s w []

theorem answered_exit (s : Net) (resp : Response) : SameExit s (answered s resp) := by
  unfold answered
  cases s.pending.lookup resp.reqID with
  | none => exact ⟨rfl,rfl,rfl⟩
  | some w => exact returns_exit s w _

theorem read_exit (s : Net) (r : Nat) (connID : ConnID) (size : Nat) : SameExit s (read s r connID size) := by
  unfold read
  split_ifs <;> exact ⟨rfl,rfl,rfl⟩

theorem poll_exit (s : Net) (r : Nat) (reqID : UInt32) (token : Text) (seq : Nat) :
    SameExit s (poll s r reqID token seq) := by
  unfold poll
  cases s.reads.lookup r with
  | none => exact ⟨rfl,rfl,rfl⟩
  | some rd =>
    dsimp only
    split_ifs
    · obtain ⟨wrote,arrived,handlers⟩ :=
        roundTrip_exit s ⟨reqID,token,⟨rd.connID,seq,[],[],noTarget_fits⟩⟩ (.read r)
      exact ⟨wrote,arrived,handlers⟩
    · exact ⟨rfl,rfl,rfl⟩

theorem finish_exit (s : Net) (r : Nat) : SameExit s (finish s r) := by
  unfold finish
  split <;> exact ⟨rfl,rfl,rfl⟩

theorem tidy_arrives (tidy : Tidy s)
    (inOrder : d.send.payload ≠ [] →
      (∀ m ∈ s.arrived, m.connID = d.send.connID → m.payload ≠ [] → m.seq < d.send.seq) ∧
        ∀ h ∈ s.handlers, h.send.connID = d.send.connID → h.send.payload = []) :
    Tidy { s with handlers := s.handlers ++ [d], arrived := s.arrived ++ [d.send] } := by
  refine ⟨?_,?_,?_,?_,tidy.ordered⟩
  · intro m written
    grind [tidy.writtenArrived]
  · intro h running
    grind [tidy.runningArrived]
  · grind [tidy.single]
  · intro m written h running same payload
    rcases mem_append.mp running with old | new
    · exact tidy.later m written h old same payload
    · rw [mem_singleton.mp new] at same payload ⊢
      obtain ⟨arrived,carries⟩ := tidy.writtenArrived m written
      exact (inOrder payload).1 m arrived same carries

theorem single_others {handlers : List Datagram} {k : Nat} {h : Datagram}
    (single : handlers.Pairwise
      (fun h h' => h.send.connID = h'.send.connID → h.send.payload = [] ∨ h'.send.payload = []))
    (there : handlers[k]? = some d) (payload : d.send.payload ≠ []) (other : h ∈ handlers.eraseIdx k)
    (same : d.send.connID = h.send.connID) : h.send.payload = [] := by
  obtain ⟨j,apart,found⟩ := mem_eraseIdx_iff_getElem?.mp other
  obtain ⟨kInside,kValue⟩ := List.getElem?_eq_some_iff.mp there
  obtain ⟨jInside,jValue⟩ := List.getElem?_eq_some_iff.mp found
  have pairs := pairwise_iff_getElem.mp single
  rcases Nat.lt_or_gt_of_ne apart with before | after
  · grind
  · grind

theorem tidy_handles {S : Strings} {cfg : Config} {a : Call} {k : Nat} (tidy : Tidy s)
    (there : s.handlers[k]? = some d) : Tidy (handle S { s with handlers := s.handlers.eraseIdx k } cfg a d) := by
  have running (h : Datagram) (rest : h ∈ s.handlers.eraseIdx k) : h ∈ s.handlers := mem_of_mem_eraseIdx rest
  have here : d ∈ s.handlers := mem_of_getElem? there
  have single := tidy.single.sublist (eraseIdx_sublist s.handlers k)
  cases wrote : wroteAny (sncuHandle S cfg a s.pool d.request).2.effects with
  | false =>
    refine ⟨?_,fun h rest => tidy.runningArrived h (running h rest),single,?_,?_⟩
    · simpa [handle,wrote] using tidy.writtenArrived
    · simp only [handle,wrote]
      exact fun m written h rest => tidy.later m written h (running h rest)
    · simpa [UploadsOrdered,handle,wrote] using tidy.ordered
  | true =>
    have payload := handle_wrote wrote
    refine ⟨?_,fun h rest => tidy.runningArrived h (running h rest),single,?_,?_⟩
    · grind [handle,tidy.writtenArrived,tidy.runningArrived]
    · simp only [handle,wrote,if_true,mem_append,mem_singleton]
      rintro m (old | rfl) h rest same carries
      · exact tidy.later m old h (running h rest) same carries
      · exact absurd (single_others tidy.single there payload rest same) carries
    · simp only [handle,wrote]
      refine pairwise_append.mpr ⟨tidy.ordered,pairwise_singleton _ _,?_⟩
      intro m old m' new same
      rw [mem_singleton.mp new] at same ⊢
      exact tidy.later m old d here same payload

theorem tidy_next {S : Strings} {i : Input} (inOrder : ArrivesInOrder s i) (tidy : Tidy s) :
    Tidy (next S s i) := by
  cases i with
  | roundTrip d => exact tidy.of_same (roundTrip_exit s d .write)
  | timeout reqID => exact tidy.of_same (timeout_exit s reqID)
  | fails reqID =>
    grind [next,tidy.of_same,returns_exit]
  | read r connID size => exact tidy.of_same (read_exit s r connID size)
  | poll r reqID token seq => exact tidy.of_same (poll_exit s r reqID token seq)
  | finish r => exact tidy.of_same (finish_exit s r)
  | arrives k =>
    simp only [next]
    cases there : s.sent[k]? with
    | none => exact tidy
    | some d => exact tidy_arrives tidy (inOrder d there)
  | handles k cfg a =>
    grind [next,tidy_handles]
  | answered k =>
    grind [next,tidy.of_same,answered_exit]
  | evict connID => exact tidy.of_same ⟨rfl,rfl,rfl⟩
  | reset connID => exact tidy.of_same ⟨rfl,rfl,rfl⟩

theorem tidy_fresh : Tidy {} := by
  refine ⟨?_,?_,.nil,?_,.nil⟩
  · intro m written
    cases written
  · intro h running
    cases running
  · intro m written
    cases written

/-- Payloads are written to the target once and in order in every run in which their
    datagrams arrive in order, none again, and each after the one before was handled. -/
theorem uploads_ordered (S : Strings) {inputs : List Input} (inOrder : Along (step S) ArrivesInOrder {} inputs) :
    UploadsOrdered (final (step S) {} inputs) :=
  (state_along (P := Tidy) (fun _ _ meets tidy => tidy_next meets tidy) inOrder tidy_fresh).ordered

def sampleSend (seq : Nat) (payload : List UInt8) : Send :=
  { connID := Tunnel.sampleID
    seq := seq
    target := if seq = 0 then Tunnel.bytes "example.org:80".toList else []
    payload := payload
    fits := by split_ifs <;> decide }

def sampleDatagram (reqID : UInt32) (seq : Nat) (payload : List UInt8) : Datagram :=
  ⟨reqID,"alice".toList,sampleSend seq payload⟩

def sampleDial : List Input :=
  [.roundTrip (sampleDatagram 0 0 []),.arrives 0,.handles 0 .bare .alone,.answered 0]

def sampleRetry : List Input :=
  sampleDial ++
    [.roundTrip (sampleDatagram 1 1 [0x47]),.arrives 1,.handles 0 .bare .alone,.timeout 1,.arrives 2,
      .handles 0 .bare .alone]

theorem upload_written_twice : ¬ ∀ S inputs, UploadsOrdered (final (step S) {} inputs) := by
  intro ordered
  have twice : (final (step .ascii) {} sampleRetry).wrote = [sampleSend 1 [0x47],sampleSend 1 [0x47]] := by
    decide +kernel
  have pair := ordered .ascii sampleRetry
  simp [UploadsOrdered,twice] at pair

/-- Two payloads whose datagrams arrive one after the other. -/
theorem uploads_ordered_twice :
    UploadsOrdered (final (step .ascii) {} (sampleDial ++
      [.roundTrip (sampleDatagram 1 1 [0x47]),.arrives 1,.handles 0 .bare .alone,.answered 1,
        .roundTrip (sampleDatagram 2 2 [0x45]),.arrives 2,.handles 0 .bare .alone])) :=
  uploads_ordered .ascii (by decide +kernel)

end TunnelCat.Sncu
