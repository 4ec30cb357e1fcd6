import Mathlib.Logic.Function.Basic
import TunnelCat.ContentRegistry
import TunnelCat.RelayStore

/-!
The gossip of a DHT node (`dht/dht_node.go`, `dht/dht_content.go`): packets of every type, the control
manifest and the content manifest that the node passes on, and the mark that it has all of the content.
-/
namespace TunnelCat.Gossip
open Kademlia HostPort Goroutines Runs RelayStore
open DhtNode (ContactJSON parseID)

inductive Channel
  | control
  | content
deriving DecidableEq

/-- The packets by their type. A payload is `none` where its JSON is not accepted. -/
inductive Packet
  | ping
  | pong
  | findNode (payload : Option (ContactJSON × Text))
  | nodes (payload : Option (ContactJSON × List ContactJSON))
  | announce (payload : Option RelayEntry)
  | ack
  | getRelays
  | relayList (payload : Option (List RelayEntry))
  | manifestHave (payload : Option Int64)
  | contentHave (payload : Option (Int64 × Bool))
  | want (ch : Channel)
  | data (ch : Channel) (payload : Option (Int64 × List UInt8))
  | holePunch (payload : Option (Text × Text))
  | mirrorPunch (payload : Option Text)
  | unknown (msgType : UInt8)

def learned (now : Nat) : Packet → List Contact
  | .findNode payload => DhtNode.learned now (.findNode payload)
  | .nodes payload => DhtNode.learned now (.nodes payload)
  | _ => []

structure Signed where
  raw : List UInt8
  ts : Int64

inductive Reply
  | pong
  | nodes (contacts : List Contact)
  | ack
  | relayList (entries : List RelayEntry)
  | want (ch : Channel)
  | data (ch : Channel) (manifest : Signed)
  | manifestHave (ts : Int64)
  | contentHave (ts : Int64) (complete : Bool)

inductive Callback
  | manifest (ch : Channel)
  | holePunch
  | mirrorPunch

structure CompletePeer where
  ts : Int64
  complete : Bool
  lastSeen : Int64

structure Node where
  core : DhtNode.Node
  relays : Entries
  stored : Channel → Signed
  complete : Bool
  completePeers : Table Text CompletePeer
  registered : Callback → Bool
  selfAddr : Text

inductive Shown
  | sent (dst : Text) (r : Reply)
  | onManifest (ch : Channel) (raw : List UInt8)
  | onHolePunch (peer control : Text)
  | onMirrorPunch (peer : Text)
  | core (shown : DhtNode.Shown)

inductive Point
  /-- a goroutine of the contacts; where it began with a packet, the packet is served after it -/
  | core (t : DhtNode.Point) (packet : Option (Text × Packet))
  | serve (src : Text) (packet : Packet)
  | storeRelays (entries : List RelayEntry)
  | compare (ch : Channel) (src : Text) (ts : Int64)
  | gossip (ch : Channel)
  | advertise (r : Reply)

structure World extends DhtNode.World where
  scheme : Scheme
  seals : Reply → Bool

variable (w : World)

def send (dst : Text) (r : Reply) : List Shown := if w.seals r then [.sent dst r] else []

variable (n : Node)

def serve (now : Int64) (n : Node) (src : Text) : Packet → Ran Node Point Shown
  | .ping => ⟨n,none,[],send w src .pong⟩
  | .findNode (some (_, target)) =>
    ⟨n,none,[],(parseID target).toList.flatMap (fun id => send w src (.nodes (n.core.rt.closest w.sort id K)))⟩
  | .announce (some e) =>
    let r := store w.scheme n.relays now e
    ⟨{ n with relays := r.1 },none,[],if r.2.isOk then send w src .ack else []⟩
  | .getRelays =>
    ⟨n,none,[],send w src (.relayList ((n.relays.entries.map Sigma.snd).filter (fun e => now - e.ts ≤ relayTTL)))⟩
  | .relayList (some entries) => ⟨n,some (.storeRelays entries),[],[]⟩
  | .manifestHave (some ts) => ⟨n,some (.compare .control src ts),[],[]⟩
  | .contentHave (some (ts, complete)) =>
    ⟨{ n with completePeers := n.completePeers.insert src ⟨ts,complete,now⟩ },some (.compare .content src ts),[],[]⟩
  | .want ch => ⟨n,none,[],if (n.stored ch).raw = [] then [] else send w src (.data ch (n.stored ch))⟩
  | .data ch (some (ts, raw)) =>
    ⟨n,none,[],if ts ≤ (n.stored ch).ts ∨ ¬ n.registered (.manifest ch) then [] else [.onManifest ch raw]⟩
  | .holePunch (some (peer, control)) =>
    ⟨n,none,[],if peer = [] ∨ ¬ n.registered .holePunch ∨ control ≠ [] ∧ control = n.selfAddr then []
      else [.onHolePunch peer control]⟩
  | .mirrorPunch (some peer) => ⟨n,none,[],if peer = [] ∨ ¬ n.registered .mirrorPunch then [] else [.onMirrorPunch peer]⟩
  | _ => ⟨n,none,[],[]⟩

def advert : Channel → Reply
  | .control => .manifestHave (n.stored .control).ts
  | .content => .contentHave (n.stored .content).ts n.complete

def act (now : Int64) (n : Node) : Point → Ran Node Point Shown
  | .core t packet =>
    let r := DhtNode.act w.toWorld n.core t
    let next := match r.next with
      | some t' => some (.core t' packet)
      | none => packet.map (fun p => .serve p.1 p.2)
    ⟨{ n with core := r.state },next,r.started.map (fun t => .core t none),r.shown.map .core⟩
  | .serve src packet => serve w now n src packet
  | .storeRelays [] => ⟨n,none,[],[]⟩
  | .storeRelays (e :: rest) => ⟨{ n with relays := (store w.scheme n.relays now e).1 },some (.storeRelays rest),[],[]⟩
  | .compare ch src ts => ⟨n,none,[],if ts > (n.stored ch).ts then send w src (.want ch) else []⟩
  | .gossip ch => ⟨n,if (n.stored ch).ts = 0 then none else some (.advertise (advert n ch)),[],[]⟩
  | .advertise r =>
    ⟨n,none,[],(n.core.rt.closest w.sort n.core.rt.self K).flatMap (fun c => (w.resolve c.addr).toList.flatMap (fun dst => send w dst r))⟩

def setManifest (raw : List UInt8) (ts : Int64) : Node :=
  if ts > (n.stored .control).ts then { n with stored := Function.update n.stored .control ⟨raw,ts⟩ } else n

def setContent (raw : List UInt8) (ts : Int64) : Node :=
  if ts > (n.stored .content).ts then { n with stored := Function.update n.stored .content ⟨raw,ts⟩, complete := false } else n

/-- `ContentRegistry` has the node as far as the control sees it, and `setContent` keeps the two alike. -/
theorem setContent_shows (text : Body → List UInt8) (c : ContentRegistry.Control) (data : Body) (ts : Int64)
    (shown : n.stored .content = ⟨(c.contentRaw.map text).getD [],c.contentTS⟩) :
    (setContent n (text data) ts).stored .content =
      ⟨((ContentRegistry.setContent c data ts).contentRaw.map text).getD [],(ContentRegistry.setContent c data ts).contentTS⟩ := by
  by_cases newer : ts > c.contentTS <;> simp [setContent,ContentRegistry.setContent,shown,newer]

def setContentComplete (ts : Int64) (complete : Bool) : Node :=
  if ts = (n.stored .content).ts then { n with complete := complete } else n

/-- A packet that was opened comes in, a loop of the node starts a goroutine, a goroutine takes a
    step, or the node is called. -/
inductive Input
  | packet (now : Nat) (src : Text) (p : Packet)
  | core (t : DhtNode.Point)
  | gossip (ch : Channel)
  | run (k : Nat) (now : Int64)
  | register (callbacks : Callback → Bool)
  | setOwnAddr (addr : Text)
  | setManifest (raw : List UInt8) (ts : Int64)
  | setContent (raw : List UInt8) (ts : Int64)
  | setContentComplete (ts : Int64) (complete : Bool)

abbrev State := Pool Node Point

def step (p : State) : Input → State × List Shown
  | .packet now src packet => (p.start [.core (.heard src (learned now packet)) (some (src,packet))],[])
  | .core t => (p.start [.core t none],[])
  | .gossip ch => (p.start [.gossip ch],[])
  | .run k now => runAt (act w now) p k
  | .register callbacks => ({ p with state.registered := callbacks },[])
  | .setOwnAddr addr => ({ p with state.selfAddr := addr },[])
  | .setManifest raw ts => ({ p with state := setManifest p.state raw ts },[])
  | .setContent raw ts => ({ p with state := setContent p.state raw ts },[])
  | .setContentComplete ts complete => ({ p with state := setContentComplete p.state ts complete },[])

def start (own : ID) (addr : Text) : State := ⟨⟨⟨.new own,∅⟩,∅,fun _ => ⟨[],0⟩,false,∅,fun _ => false,addr⟩,[]⟩

def Input.isLocal : Input → Bool
  | .setManifest _ _ => true
  | .setContent _ _ => true
  | .setContentComplete _ _ => true
  | _ => false

/-- The content version `ts` was marked complete while it was current, it still is, and the mark was
    not taken back. -/
def Earned (own : ID) (addr : Text) (inputs : List Input) (ts : Int64) : Prop :=
  ∃ before rest, inputs = before ++ .setContentComplete ts true :: rest ∧
    ((final (step w) (start own addr) before).state.stored .content).ts = ts ∧ .setContentComplete ts false ∉ rest ∧
    ((final (step w) (start own addr) inputs).state.stored .content).ts = ts

variable {w} {now : Int64} {n} {t : Point} {p : State} {i : Input}

theorem serve_frame (src : Text) (packet : Packet) : (serve w now n src packet).state.stored = n.stored ∧
    (serve w now n src packet).state.complete = n.complete := by
  unfold serve
  split <;> simp

theorem act_frame : (act w now n t).state.stored = n.stored ∧ (act w now n t).state.complete = n.complete := by
  unfold act
  grind [serve_frame]

theorem step_frame (outside : i.isLocal = false) :
    (step w p i).1.state.stored = p.state.stored ∧ (step w p i).1.state.complete = p.state.complete := by
  cases i with
  | run k now =>
    cases there : p.running[k]? with
    | none => simp [step,there]
    | some t =>
      simp only [step,runAt_state there]
      exact act_frame
  | setManifest raw ts => cases outside
  | setContent raw ts => cases outside
  | setContentComplete ts complete => cases outside
  | _ => exact ⟨rfl,rfl⟩

theorem step_newer (ch : Channel) : (p.state.stored ch).ts ≤ ((step w p i).1.state.stored ch).ts := by
  have same (n : Node) (other : Channel) (m : Signed) (newer : m.ts > (n.stored other).ts) :
      (n.stored ch).ts ≤ (Function.update n.stored other m ch).ts := by
    grind
  cases outside : i.isLocal with
  | false => rw [(step_frame outside).1]; exact Int64.le_refl _
  | true =>
    cases i with
    | setManifest raw ts =>
      simp only [step,setManifest]
      split_ifs with newer
      · exact same _ _ _ newer
      · exact Int64.le_refl _
    | setContent raw ts =>
      simp only [step,setContent]
      split_ifs with newer
      · exact same _ _ _ newer
      · exact Int64.le_refl _
    | setContentComplete ts complete =>
      grind [step,setContentComplete]
    | _ => cases outside

variable {own : ID} {addr : Text} {inputs : List Input} {ts : Int64}

theorem Earned.snoc (earned : Earned w own addr inputs ts) (kept : i ≠ .setContentComplete ts false)
    (current : ((final (step w) (start own addr) (inputs ++ [i])).state.stored .content).ts = ts) :
    Earned w own addr (inputs ++ [i]) ts := by
  obtain ⟨before,rest,split,then_,revoked,-⟩ := earned
  exact ⟨before,rest ++ [i],by simp [split],then_,by simp [revoked,kept.symm],current⟩

theorem step_mark (p : State) (i : Input) : (step w p i).1.state.complete = false ∨
    i = .setContentComplete ((step w p i).1.state.stored .content).ts true ∧
      (step w p i).1.state.stored = p.state.stored ∨
    (step w p i).1.state.complete = p.state.complete ∧
      ((step w p i).1.state.stored .content).ts = (p.state.stored .content).ts ∧
      i ≠ .setContentComplete (p.state.stored .content).ts false := by
  cases outside : i.isLocal with
  | false =>
    obtain ⟨stored,complete⟩ := step_frame (w := w) (p := p) outside
    refine .inr (.inr ⟨complete,by rw [stored],?_⟩)
    rintro rfl
    cases outside
  | true =>
    cases i with
    | setManifest raw ts =>
      simp only [step,setManifest]
      split_ifs <;> simp
    | setContent raw ts =>
      simp only [step,setContent]
      split_ifs <;> simp
    | setContentComplete ts complete =>
      grind [step,setContentComplete]
    | _ => cases outside

theorem earned_of_complete : (final (step w) (start own addr) inputs).state.complete = true →
    Earned w own addr inputs ((final (step w) (start own addr) inputs).state.stored .content).ts := by
  induction inputs using List.reverseRecOn with
  | nil => simp [start]
  | append_singleton before i ih =>
    rw [final_snoc]
    intro marked
    rcases step_mark (w := w) (final (step w) (start own addr) before) i with gone | ⟨set_,stored⟩ | ⟨mark,version,kept⟩
    · simp [gone] at marked
    · refine ⟨before,[],by rw [← set_],by rw [stored],by simp,by rw [final_snoc]⟩
    · rw [version]
      exact (ih (mark ▸ marked)).snoc kept (by rw [final_snoc,version])

variable {dst src : Text} {c : Bool} {r : Reply}

theorem send_eq {x : Shown} (sent : x ∈ send w dst r) : x = .sent dst r := by
  unfold send at sent
  split_ifs at sent <;> simp_all

theorem serve_ends (src : Text) (packet : Packet) : (serve w now n src packet).started = [] ∧
    ∀ r, (serve w now n src packet).next ≠ some (.advertise r) := by
  unfold serve
  split <;> simp

theorem serve_quiet (packet : Packet) : .sent dst (.contentHave ts c) ∉ (serve w now n src packet).shown := by
  have quiet {dst' : Text} {r : Reply} (other : r ≠ .contentHave ts c) : .sent dst (.contentHave ts c) ∉ send w dst' r := by
    intro sent
    have same := send_eq sent
    simp_all
  unfold serve
  split <;> simp [quiet]

theorem act_shows (sent : .sent dst (.contentHave ts c) ∈ (act w now n t).shown) : t = .advertise (.contentHave ts c) := by
  unfold act at sent
  split at sent
  · simp at sent
  · exact absurd sent (serve_quiet _)
  · simp at sent
  · simp at sent
  · split_ifs at sent
    · simpa using send_eq sent
    · simp at sent
  · simp at sent
  · simp only [List.mem_flatMap] at sent
    obtain ⟨c,-,dst,-,sent⟩ := sent
    obtain ⟨-,rfl⟩ := Shown.sent.inj (send_eq sent)
    rfl

theorem act_reads (next : (act w now n t).next = some (.advertise (.contentHave ts true))) :
    t = .gossip .content ∧ n.complete = true ∧ (n.stored .content).ts = ts := by
  cases t with
  | gossip ch => cases ch <;> simp_all [act,advert]
  | core t packet =>
    simp only [act] at next
    split at next <;> simp at next
  | serve src packet => exact absurd next ((serve_ends src packet).2 _)
  | storeRelays entries => cases entries <;> simp [act] at next
  | compare ch src ts => simp [act] at next
  | advertise r => simp [act] at next

theorem act_starts (r : Reply) : .advertise r ∉ (act w now n t).started := by
  cases t with
  | serve src packet => simp [act,serve_ends src packet]
  | storeRelays entries => cases entries <;> simp [act]
  | _ => simp [act]

/-- Whatever packets come in and goroutines do, only the calls change the manifests, and these only
    get newer. A goroutine makes a message that a version is complete only in the step in which it
    reads the mark, and only if the mark is earned then; it sends what it has made. -/
theorem gossip_frame (w : World) (own : ID) (addr : Text) (inputs : List Input) (i : Input) :
    let s := final (step w) (start own addr) inputs
    (i.isLocal = false → (step w s i).1.state.stored = s.state.stored ∧ (step w s i).1.state.complete = s.state.complete) ∧
    (∀ ch, (s.state.stored ch).ts ≤ ((step w s i).1.state.stored ch).ts) ∧
    (∀ k now t ts, i = .run k now → s.running[k]? = some t →
      (act w now s.state t).next = some (.advertise (.contentHave ts true)) → t = .gossip .content ∧ Earned w own addr inputs ts) ∧
    (∀ r, .advertise r ∈ (step w s i).1.running → .advertise r ∈ s.running ∨
      ∃ k now t, i = .run k now ∧ s.running[k]? = some t ∧ (act w now s.state t).next = some (.advertise r)) ∧
    ∀ dst ts, .sent dst (.contentHave ts true) ∈ (step w s i).2 →
      ∃ k now, i = .run k now ∧ s.running[k]? = some (.advertise (.contentHave ts true)) := by
  intro s
  refine ⟨step_frame,step_newer,?_,?_,?_⟩
  · intro k now t ts _ _ next
    obtain ⟨reads,marked,version⟩ := act_reads next
    exact ⟨reads,version ▸ earned_of_complete marked⟩
  · intro r mem
    cases i with
    | run k now =>
      cases there : s.running[k]? with
      | none =>
        simp only [step,runAt_none there] at mem
        exact .inl mem
      | some t =>
        rcases mem_runAt there mem with old | next | new
        · exact .inl old
        · exact .inr ⟨k,now,t,rfl,there,next⟩
        · exact absurd new (act_starts r)
    | packet now src packet => exact .inl (by simpa [step,Pool.start] using mem)
    | core t => exact .inl (by simpa [step,Pool.start] using mem)
    | gossip ch => exact .inl (by simpa [step,Pool.start] using mem)
    | _ => exact .inl mem
  · intro dst ts sent
    cases i with
    | run k now =>
      cases there : s.running[k]? with
      | none => simp [step,there] at sent
      | some t =>
        simp only [step,runAt_shown there] at sent
        exact ⟨k,now,rfl,act_shows sent ▸ there⟩
    | _ => simp [step] at sent

end TunnelCat.Gossip
