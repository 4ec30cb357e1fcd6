import TunnelCat.Durations
import TunnelCat.Runs
import TunnelCat.Table

/-!
Telling QUIC packets from the others on the control's UDP socket (`snc-control/quic_demux.go`): each
connection id that the control hands out is noted with the time, which no packet renews.
-/
namespace TunnelCat.QuicDemux
open Durations Runs

def quicCIDLen : Nat := 8

def quicCIDTTL : Nat := 10 * minute

def quicVersions : List Nat := [1,0x6b3343cf]

def looksLikeQUICInitial : List UInt8 → Bool
  | b0 :: b1 :: b2 :: b3 :: b4 :: _ =>
    b0 &&& 0xC0 = 0xC0 && ((b1.toNat * 256 + b2.toNat) * 256 + b3.toNat) * 256 + b4.toNat ∈ quicVersions
  | _ => false

abbrev Tracker := Table (List UInt8) Nat

variable (t : Tracker)

def cleanup (now : Nat) (t : Tracker) : Tracker := t.filter (fun _ seenAt => !(seenAt + quicCIDTTL < now))

def add (now : Nat) (cid : List UInt8) (t : Tracker) : Tracker := t.insert cid now

def has (cid : List UInt8) : Bool := (t.lookup cid).isSome

def classify (pkt : List UInt8) : Bool :=
  if looksLikeQUICInitial pkt then true
  else
    match pkt with
    | [] => false
    | b0 :: rest =>
      if rest.length < quicCIDLen then false
      else if b0 &&& 0x80 ≠ 0 then false
      else has t (rest.take quicCIDLen)

structure ConnectionID where
  bytes : List UInt8
  size : bytes.length = quicCIDLen
deriving DecidableEq

/-- A connection id is asked for, which fails if no random bytes can be had; the cleanup
    ticker fires; or a packet comes in. -/
inductive Input
  | generate (now : Nat) (draw : Option ConnectionID)
  | tick (now : Nat)
  | packet (now : Nat) (pkt : List UInt8)
deriving DecidableEq

def step : Input → Tracker × Option Bool
  | .generate _ none => (t,none)
  | .generate now (some cid) => (add now cid.bytes t,none)
  | .tick now => (cleanup now t,none)
  | .packet _ pkt => (t,some (classify t pkt))

def after (inputs : List Input) : Tracker := final step ∅ inputs

def shortHeader (first : UInt8) (cid : ConnectionID) (payload : List UInt8) : List UInt8 := first :: (cid.bytes ++ payload)

theorem classify_shortHeader {first : UInt8} (short : first &&& 0x80 = 0) (t : Tracker) (cid : ConnectionID)
    (payload : List UInt8) : classify t (shortHeader first cid payload) = has t cid.bytes := by
  have form : first &&& 0xC0 ≠ 0xC0 := by
    intro long
    have bit : (first &&& 0xC0) &&& 0x80 = 0x80 := by rw [long]; decide
    grind
  have notInitial : looksLikeQUICInitial (shortHeader first cid payload) = false := by
    unfold looksLikeQUICInitial shortHeader
    grind
  grind [cid.size,shortHeader,classify]

def keeps (seenAt : Nat) : Input → Bool
  | .tick now => !(seenAt + quicCIDTTL < now)
  | _ => true

theorem lookup_final {cid : ConnectionID} (later : List Input) :
    ∀ {t : Tracker}, (∀ now, .generate now (some cid) ∉ later) →
      (final step t later).lookup cid.bytes = (t.lookup cid.bytes).filter (fun seenAt => later.all (keeps seenAt)) := by
  induction later with
  | nil =>
    intro t _
    cases found : t.lookup cid.bytes <;> simp [found,Option.filter]
  | cons i rest ih =>
    intro t last
    have tail := fun now member => last now (List.mem_cons_of_mem _ member)
    rw [final_cons,ih tail]
    cases i with
    | generate now draw =>
      cases draw with
      | none => simp [step,keeps]
      | some other =>
        have differs : cid.bytes ≠ other.bytes := by
          intro same
          have equal : cid = other := by
            cases cid
            cases other
            simpa using same
          exact last now (equal ▸ List.mem_cons_self)
        simp [step,add,keeps,AList.lookup_insert_ne differs]
    | tick now =>
      simp only [step,cleanup,Table.lookup_filter,Option.filter_filter,List.all_cons,keeps]
    | packet now pkt => simp [step,keeps]

/-- A packet with a short header is classified as QUIC exactly when no cleanup pass has run
    later than `quicCIDTTL` after its connection id was last handed out. -/
theorem classify_iff (before later : List Input) (handedOut : Nat) (cid : ConnectionID)
    (last : ∀ now, .generate now (some cid) ∉ later) (first : UInt8) (short : first &&& 0x80 = 0) (payload : List UInt8) :
    classify (after (before ++ .generate handedOut (some cid) :: later)) (shortHeader first cid payload) = true ↔
      ∀ now, .tick now ∈ later → now ≤ handedOut + quicCIDTTL := by
  have known : (after (before ++ .generate handedOut (some cid) :: later)).lookup cid.bytes =
      if later.all (keeps handedOut) then some handedOut else none := by
    rw [after,final_append,final_cons,lookup_final later last]
    simp [step,add,Option.filter_some]
  have ticks : later.all (keeps handedOut) = true ↔ ∀ now, .tick now ∈ later → now ≤ handedOut + quicCIDTTL := by
    rw [List.all_eq_true]
    constructor
    · intro all now member
      simpa [keeps] using all _ member
    · intro bound i member
      cases i with
      | tick now => simpa [keeps] using bound now member
      | _ => rfl
  rw [classify_shortHeader short,has,known,← ticks]
  split_ifs with all <;> simp [all]

def addressed (cid : ConnectionID) (pkt : List UInt8) : Bool :=
  match pkt with
  | [] => false
  | b0 :: rest => b0 &&& 0x80 = 0 && rest.take quicCIDLen = cid.bytes

def Input.time : Input → Nat
  | .generate now _ => now
  | .tick now => now
  | .packet now _ => now

/-- Packets addressed to an id keep arriving with gaps shorter than `quicCIDTTL`, the last
    one before these inputs at the time `heard`. -/
def Busy (cid : ConnectionID) : Nat → List Input → Prop
  | _, [] => True
  | heard, i :: rest =>
    match i with
    | .packet now pkt =>
      if addressed cid pkt then now < heard + quicCIDTTL ∧ Busy cid now rest else Busy cid heard rest
    | _ => Busy cid heard rest

instance Busy.decidable (cid : ConnectionID) (inputs : List Input) : ∀ heard, Decidable (Busy cid heard inputs) :=
  match inputs with
  | [] => fun _ => isTrue trivial
  | .generate _ _ :: rest => fun heard => Busy.decidable cid rest heard
  | .tick _ :: rest => fun heard => Busy.decidable cid rest heard
  | .packet now pkt :: rest => fun heard =>
    have := Busy.decidable cid rest
    inferInstanceAs (Decidable
      (if addressed cid pkt then now < heard + quicCIDTTL ∧ Busy cid now rest else Busy cid heard rest))

def sampleCID : ConnectionID := ⟨[1,2,3,4,5,6,7,8],by decide⟩

def busyHour : List Input :=
  (List.range 60).flatMap (fun n => [.tick ((n + 1) * minute),.packet ((n + 1) * minute + 1) (shortHeader 0x40 sampleCID [])])

/-- A packet of a busy connection is not classified as QUIC eleven minutes after its
    connection id was handed out. -/
theorem busy_unclassified : ¬ ∀ (before later : List Input) (handedOut : Nat) (cid : ConnectionID),
    ((before ++ .generate handedOut (some cid) :: later).map Input.time).Pairwise (· ≤ ·) → Busy cid handedOut later →
    ∀ first rest now pkt, later = first ++ .packet now pkt :: rest → addressed cid pkt = true →
      classify (after (before ++ .generate handedOut (some cid) :: first)) pkt = true := by
  intro all
  have classified := all [] busyHour 0 sampleCID (by decide +kernel) (by decide +kernel) (busyHour.take 21)
    (busyHour.drop 22) (11 * minute + 1) (shortHeader 0x40 sampleCID []) (by decide +kernel) (by decide +kernel)
  revert classified
  decide +kernel

/-- Before any cleanup pass finds it too old, the id is known. -/
theorem classify_first_minute :
    (∀ now, .generate now (some sampleCID) ∉ busyHour.take 2) ∧
    (classify (after ([] ++ .generate 0 (some sampleCID) :: busyHour.take 2)) (shortHeader 0x40 sampleCID []) = true ↔
      ∀ now, .tick now ∈ busyHour.take 2 → now ≤ 0 + quicCIDTTL) := by
  have last : ∀ now, .generate now (some sampleCID) ∉ busyHour.take 2 := by
    intro now
    simp [busyHour,List.range_succ_eq_map]
  exact ⟨last,classify_iff [] (busyHour.take 2) 0 sampleCID last 0x40 (by decide) []⟩

end TunnelCat.QuicDemux
