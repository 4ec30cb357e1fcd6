import TunnelCat.Goroutines
import TunnelCat.Kademlia
import TunnelCat.Runs
import TunnelCat.Table

/-!
The contacts of a DHT node and its pings (`dht/dht_node.go`). The handlers, the maintenance loop and the
timers run as goroutines, one point between two uses of a lock. A ping is accounted to the contact that
`Closest` finds, which leaves the suspect ones out.
-/
namespace TunnelCat.DhtNode
open Kademlia Selection NetIP HostPort Goroutines Runs List

structure ContactJSON where
  id : Text
  addr : Text

def hexDecode : Text → Option (List UInt8)
  | [] => some []
  | [_] => none
  | a :: b :: rest =>
    match hexValue a, hexValue b, hexDecode rest with
    | some high, some low, some bytes => some (UInt8.ofNat (high * 16 + low) :: bytes)
    | _, _, _ => none

def parseID (s : Text) : Option ID :=
  match hexDecode s with
  | none => none
  | some bytes => if size : bytes.length = 32 then some ⟨bytes,size⟩ else none

variable (now : Nat)

def contactFromJSON (j : ContactJSON) : Option Contact := (parseID j.id).map (fun id => ⟨id,j.addr,now,0,false⟩)

def isUnspecified (ip : IP) : Bool :=
  match ip.canonical with
  | .four addr => addr = 0
  | .sixteen addr => addr = 0

def isValidContactAddr (addr : Text) : Bool :=
  match splitHostPort addr with
  | none => false
  | some (host, _) =>
    match parseIP host with
    | none => false
    | some ip => !isUnspecified ip

inductive Msg
  | findNode (payload : Option (ContactJSON × Text))
  | nodes (payload : Option (ContactJSON × List ContactJSON))
  | other (msgType : UInt8)

def learned : Msg → List Contact
  | .findNode (some (sender, target)) =>
    match parseID target with
    | none => []
    | some _ => (contactFromJSON now sender).toList
  | .nodes (some (sender, nodes)) =>
    (if sender.id ≠ [] ∧ isValidContactAddr sender.addr then (contactFromJSON now sender).toList else []) ++
      nodes.filterMap (fun j => if isValidContactAddr j.addr then contactFromJSON now j else none)
  | _ => []

/-- What the node runs on: `sort.Slice`, and the address that a name resolves to, as the
    source of packets shows it. -/
structure World where
  sort : (Contact → Contact → Bool) → List Contact → List Contact
  sorts : ∀ target, Sorts (RoutingTable.less target) (sort (RoutingTable.less target))
  resolve : Text → Option Text

structure Node where
  rt : RoutingTable
  pendingPings : Table Text ID

inductive Point
  /-- `clearSuspectByAddr` of a packet, before the contacts it lists are added -/
  | heard (src : Text) (contacts : List Contact)
  | clear (id : ID) (contacts : List Contact)
  | learn (contacts : List Contact)
  | pingStale
  | reprobeSuspects
  /-- `pingAddr` of these addresses, one after the other -/
  | pingAddr (addrs : List Text)
  | register (addr : Text) (id : ID) (addrs : List Text)
  /-- the timer of a ping -/
  | timeout (addr : Text) (id : ID)
  | miss (id : ID)
deriving DecidableEq

/-- What happens in a step: a ping is sent, accounted to a contact or found unanswered by its timer; a packet comes in;
    a contact is added, and the misses of one are reset or counted up. -/
inductive Shown
  | pinged (addr : Text)
  | registered (addr : Text) (id : ID)
  | heard (src : Text)
  | cleared (id : ID)
  | listed (id : ID)
  | timedOut (addr : Text) (id : ID)
  | missed (id : ID)
deriving DecidableEq

def oldest : List Contact → Option Contact
  | [] => none
  | c :: rest => some (rest.foldl (fun old e => if e.lastSeen < old.lastSeen then e else old) c)

variable (w : World)

def pinged (rt : RoutingTable) (addr : Text) : Option Contact :=
  (rt.closest w.sort rt.self (K * 256)).find? (fun c => c.addr = addr)

def act (n : Node) : Point → Ran Node Point Shown
  | .heard src contacts =>
    match n.pendingPings.lookup src with
    | none => ⟨n,some (.learn contacts),[],[.heard src]⟩
    | some id => ⟨{ n with pendingPings := n.pendingPings.erase src },some (.clear id contacts),[],[.heard src]⟩
  | .clear id contacts => ⟨{ n with rt := n.rt.resetMissed id },some (.learn contacts),[],[.cleared id]⟩
  | .learn [] => ⟨n,none,[],[]⟩
  | .learn (c :: rest) => ⟨{ n with rt := n.rt.add c },some (.learn rest),[],[.listed c.id]⟩
  | .pingStale =>
    match oldest n.rt.all with
    | none => ⟨n,none,[],[]⟩
    | some c => ⟨n,some (.pingAddr [c.addr]),[],[]⟩
  | .reprobeSuspects => ⟨n,some (.pingAddr (n.rt.suspectContacts.map (fun c => c.addr))),[],[]⟩
  | .pingAddr [] => ⟨n,none,[],[]⟩
  | .pingAddr (addr :: rest) =>
    match w.resolve addr with
    | none => ⟨n,some (.pingAddr rest),[],[]⟩
    | some _ =>
      match pinged w n.rt addr with
      | none => ⟨n,some (.pingAddr rest),[],[.pinged addr]⟩
      | some c => ⟨n,some (.register addr c.id rest),[],[.pinged addr]⟩
  | .register addr id rest =>
    ⟨{ n with pendingPings := n.pendingPings.insert addr id },some (.pingAddr rest),[.timeout addr id],[.registered addr id]⟩
  | .timeout addr id =>
    match n.pendingPings.lookup addr with
    | none => ⟨n,none,[],[]⟩
    | some _ => ⟨{ n with pendingPings := n.pendingPings.erase addr },some (.miss id),[],[.timedOut addr id]⟩
  | .miss id => ⟨{ n with rt := n.rt.markMissed id },none,[],[.missed id]⟩

inductive Input
  | packet (now : Nat) (src : Text) (msg : Msg)
  | loadPeers (now : Nat) (contacts : List ContactJSON)
  | pingTick
  | suspectTick
  | run (k : Nat)

def step (p : Pool Node Point) : Input → Pool Node Point × List Shown
  | .packet now src msg => (p.start [.heard src (learned now msg)],[])
  | .loadPeers now contacts => (p.start [.learn (contacts.filterMap (contactFromJSON now))],[])
  | .pingTick => (p.start [.pingStale],[])
  | .suspectTick => (p.start [.reprobeSuspects],[])
  | .run k => runAt (act w) p k

def start (own : ID) : Pool Node Point := ⟨⟨.new own,∅⟩,[]⟩

def after (own : ID) (inputs : List Input) : Pool Node Point := final (step w) (start own) inputs

def isSuspect (rt : RoutingTable) (id : ID) : Bool := (rt.find id).any (fun c => c.suspect)

variable {rt : RoutingTable} {id : ID}

variable {c : Contact} {p : Pool Node Point}

def Point.contacts : Point → List Contact
  | .heard _ contacts => contacts
  | .clear _ contacts => contacts
  | .learn contacts => contacts
  | _ => []

def Point.Fresh (t : Point) : Prop := ∀ c ∈ t.contacts, c.suspect = false

theorem act_fresh (n : Node) {t : Point} (fresh : t.Fresh) :
    (∀ t', (act w n t).next = some t' → t'.Fresh) ∧ ∀ t' ∈ (act w n t).started, t'.Fresh := by
  cases t with
  | heard src contacts =>
    grind [act,Point.Fresh,Point.contacts]
  | clear id contacts => simpa [act,Point.Fresh,Point.contacts] using fresh
  | learn contacts =>
    cases contacts with
    | nil => simp [act]
    | cons c rest => grind [act,Point.Fresh,Point.contacts]
  | pingStale =>
    grind [act,Point.Fresh,Point.contacts]
  | reprobeSuspects => simp [act,Point.Fresh,Point.contacts]
  | pingAddr addrs =>
    cases addrs with
    | nil => simp [act]
    | cons addr rest =>
      grind [act,Point.Fresh,Point.contacts]
  | register addr id rest => simp [act,Point.Fresh,Point.contacts]
  | timeout addr id =>
    grind [act,Point.Fresh,Point.contacts]
  | miss id => simp [act]

def shown (own : ID) (before window : List Input) : List Shown :=
  (trace (step w) (after w own before) window).flatten

def Answered (addr : Text) (seen : List Shown) : Prop :=
  ∃ src earlier between, w.resolve addr = some src ∧ seen = earlier ++ .pinged addr :: (between ++ [.heard src]) ∧
    ∀ id, .timedOut addr id ∉ between

/-- An event that ends or replaces what is pending for an address. -/
def Shown.about (src : Text) : Shown → Bool
  | .registered addr _ => addr = src
  | .heard addr => addr = src
  | .timedOut addr _ => addr = src
  | _ => false

def Shown.expires (id : ID) : Shown → Bool
  | .timedOut _ own => own = id
  | _ => false

section
variable {w : World} {n : Node} {t : Point} {src : Text} {i : Input}

theorem find_onContact_self {f : Contact → Option Contact} (keeps : Keeps id f) :
    (rt.onContact id f keeps).find id = (rt.find id).bind f := by
  rw [RoutingTable.onContact,RoutingTable.find_update,if_pos rfl,find_atFirst_self keeps (rt.fits _).distinct]
  rfl

theorem act_pending (quiet : ∀ e ∈ (act w n t).shown, e.about src = false) (pending : n.pendingPings.lookup src = some id) :
    (act w n t).state.pendingPings.lookup src = some id := by
  cases t with
  | heard addr contacts =>
    have other : src ≠ addr := by
      rintro rfl
      simpa [Shown.about] using quiet (.heard src) (by simp [act,pending])
    cases found : n.pendingPings.lookup addr <;> simp [act,found,pending,AList.lookup_erase_ne other]
  | register addr own rest =>
    have other : src ≠ addr := by
      rintro rfl
      simpa [Shown.about] using quiet (.registered src own) (by simp [act])
    simp [act,pending,AList.lookup_insert_ne other]
  | timeout addr own =>
    have other : src ≠ addr := by
      rintro rfl
      simpa [Shown.about] using quiet (.timedOut src own) (by simp [act,pending])
    cases found : n.pendingPings.lookup addr <;> simp [act,found,pending,AList.lookup_erase_ne other]
  | _ =>
    simp only [act]
    grind

end

theorem after_snoc {w : World} {own : ID} {inputs : List Input} {i : Input} :
    after w own (inputs ++ [i]) = (step w (after w own inputs) i).1 := final_snoc _ _ _ _

section
variable {w : World} {n : Node} {t : Point} {i : Input}

/-- Each timer that finds its ping unanswered goes on to count a miss. -/
theorem act_balance (id : ID) : (act w n t).shown.countP (Shown.expires id) + [t].count (.miss id) =
    (act w n t).shown.count (.missed id) + (act w n t).next.toList.count (.miss id) ∧
      (act w n t).started.count (.miss id) = 0 := by
  cases t with
  | heard src contacts => cases found : n.pendingPings.lookup src <;> simp [act,found,Shown.expires]
  | learn contacts => cases contacts <;> simp [act,Shown.expires]
  | pingStale => cases found : oldest n.rt.all <;> simp [act,found]
  | pingAddr addrs =>
    cases addrs with
    | nil => simp [act]
    | cons addr rest =>
      cases resolved : w.resolve addr with
      | none => simp [act,resolved]
      | some _ => cases found : pinged w n.rt addr <;> simp [act,resolved,found,Shown.expires]
  | timeout addr own => cases found : n.pendingPings.lookup addr <;> simp [act,found,Shown.expires,count_cons]
  | miss own => simp [act,Shown.expires,count_cons]
  | _ => simp [act,Shown.expires]

/-- A contact that is neither added nor reset stays, its misses counted, or goes. -/
theorem act_contact {c : Contact} (unreset : .cleared id ∉ (act w n t).shown) (unlisted : .listed id ∉ (act w n t).shown)
    (found : (act w n t).state.rt.find id = some c) :
    ∃ c', n.rt.find id = some c' ∧ c.missedPings = c'.missedPings + (act w n t).shown.count (.missed id) ∧
      (0 < (act w n t).shown.count (.missed id) → c.missedPings < maxMissedPings) := by
  cases t with
  | clear own contacts =>
    have differs : id ≠ own := fun same => unreset (by simp [act,same])
    have old : (n.rt.onContact own reset (keeps_reset own)).find id = some c := found
    rw [RoutingTable.find_onContact_other differs] at old
    exact ⟨c,old,by simp [act],by simp [act]⟩
  | learn contacts =>
    cases contacts with
    | nil => exact ⟨c,found,by simp [act],by simp [act]⟩
    | cons new rest =>
      have differs : id ≠ new.id := fun same => unlisted (by simp [act,same])
      have old := (RoutingTable.find_add_other differs).symm.trans found
      refine ⟨c,?_,by simp [act],by simp [act]⟩
      split at old
      · cases old
      · exact old
  | miss own =>
    by_cases same : own = id
    · subst same
      obtain ⟨c',there,counted⟩ := Option.bind_eq_some_iff.mp ((find_onContact_self (keeps_missed own)).symm.trans found)
      refine ⟨c',there,?_⟩
      grind [act,missed]
    · have old : (n.rt.onContact own missed (keeps_missed own)).find id = some c := found
      rw [RoutingTable.find_onContact_other (Ne.symm same)] at old
      exact ⟨c,old,by simp [act,same],by simp [act,same]⟩
  | _ =>
    refine ⟨c,?_,?_,?_⟩
    all_goals
      simp only [act] at found ⊢
      grind

def Counted (id : ID) (outs : List (List Shown)) (p : Pool Node Point) : Prop :=
  .cleared id ∉ outs.flatten → .listed id ∉ outs.flatten →
    outs.flatten.countP (Shown.expires id) ≤ outs.flatten.count (.missed id) + p.running.count (.miss id) ∧
    ∀ c, p.state.rt.find id = some c → outs.flatten.count (.missed id) ≤ c.missedPings ∧
      (0 < outs.flatten.count (.missed id) → c.missedPings < maxMissedPings)

theorem step_counted (w : World) (id : ID) : Kept (step w) (Counted id) := by
  intro outs p i counted unreset unlisted
  simp only [flatten_append,flatten_cons,flatten_nil,append_nil,mem_append,not_or,countP_append,count_append] at unreset unlisted ⊢
  obtain ⟨timers,contacts⟩ := counted unreset.1 unlisted.1
  cases i with
  | run k =>
    cases there : p.running[k]? with
    | none =>
      simp only [step,runAt_none there,countP_nil,count_nil,Nat.add_zero]
      exact ⟨timers,contacts⟩
    | some t =>
      simp only [step,runAt_shown there,runAt_state there] at unreset unlisted ⊢
      obtain ⟨was,is⟩ := runAt_perm (act w) there
      obtain ⟨balance,started⟩ := act_balance (w := w) (n := p.state) (t := t) id
      rw [is.count_eq,count_append,count_append,started]
      rw [was.count_eq,← singleton_append,count_append] at timers
      refine ⟨by omega,fun c found => ?_⟩
      obtain ⟨c',old,more,below⟩ := act_contact unreset.2 unlisted.2 found
      obtain ⟨enough,under⟩ := contacts c' old
      refine ⟨by omega,fun _ => ?_⟩
      by_cases now : 0 < (act w p.state t).shown.count (.missed id)
      · exact below now
      · have := under (by omega)
        omega
  | _ =>
    simp only [step,Pool.start,countP_nil,count_nil,count_append,Nat.add_zero]
    exact ⟨by omega,contacts⟩

end

def insertSlice (less : Contact → Contact → Bool) (l : List Contact) : List Contact :=
  l.insertionSort (fun a b => !less b a)

theorem insertSlice_sorts (target : ID) : Sorts (RoutingTable.less target) (insertSlice (RoutingTable.less target)) := by
  have same : insertSlice (RoutingTable.less target) = insertSort (fun c : Contact => c.id.distance64 target) := by
    funext l
    simp [insertSlice,insertSort,RoutingTable.less,lessBy]
  rw [same]
  exact insertSort_sorts _

def sampleWorld : World := ⟨insertSlice,insertSlice_sorts,some⟩

def sampleAddr : Text := "192.0.2.7:443".toList

def ownID : ID := sampleID 255 0

def peerID : ID := sampleID 0 1

def listsPeer : List Input :=
  .packet 0 sampleAddr (.nodes (some (⟨(Bytes.hexEncode peerID.bytes).toList,sampleAddr⟩,[]))) :: List.replicate 3 (.run 0)

def turnsSuspect : List Input := listsPeer ++ .pingTick :: List.replicate 6 (.run 0)

def answers : List Input :=
  .suspectTick :: List.replicate 3 (.run 0) ++ .packet 1 sampleAddr (.other 0x02) :: List.replicate 2 (.run 0)

theorem sample_listed :
    (after sampleWorld ownID turnsSuspect).state.rt.find peerID = some ⟨peerID,sampleAddr,0,1,true⟩ := by
  decide +kernel

theorem sample_suspect : isSuspect (after sampleWorld ownID turnsSuspect).state.rt peerID = true := by
  rw [isSuspect,sample_listed]
  rfl

/-- Each of four pings finds the contact and times out before the first miss is counted. -/
def races : List Input :=
  (List.range 4).flatMap (fun k => .pingTick :: List.replicate 5 (.run k)) ++ List.replicate 4 (.run 0)

end TunnelCat.DhtNode
