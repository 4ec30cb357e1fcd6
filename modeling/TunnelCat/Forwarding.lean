import TunnelCat.Tunnel

/-!
Which peer carries a new connection (`snc-exit/handler.go`, the stages of the connect frame). No stage
forwards to a peer in the client's country, and an exit that is there itself dials last
(`home_avoided`). The list of blocked services is asked by one stage of the six, and keeps connections
off the blocked peers unless a stage before it, or one after it, dials them (`blocks_honoured_iff`).
-/
namespace TunnelCat.Forwarding
open Frames Egress HostPort Tunnel List

section
variable {S : Strings} {cfg : Config} {a : Around} {stage : Stage} {p : Peer}

def Registry.offered (r : Registry) : List Peer :=
  if r.alive.size = 0 ∨ r.peers.filter r.lives = [] then r.peers else r.peers.filter r.lives

theorem mem_shufflePeers {r : Registry} : p ∈ r.shufflePeers a stage ↔ p ∈ Registry.offered r :=
  (a.shuffles stage _).mem_iff

theorem mem_peers_of_offered {r : Registry} (offered : p ∈ Registry.offered r) : p ∈ r.peers := by
  grind [Registry.offered]

variable {candidates : List Peer} {n : Nat} {peers : List Peer}

theorem firstAnswer_mem {n : Nat} (found : firstAnswer a stage n candidates = some p) :
    p ∈ candidates ∧ ∃ m, a.dials stage m p = true := by
  induction candidates generalizing n with
  | nil => cases found
  | cons q rest ih =>
    grind [firstAnswer]

theorem firstAnswer_some (member : p ∈ candidates) (answers : ∀ n, a.dials stage n p = true)
    (n : Nat) : ∃ q, firstAnswer a stage n candidates = some q := by
  induction candidates generalizing n with
  | nil => cases member
  | cons q rest ih =>
    rw [firstAnswer]
    by_cases up : a.dials stage n q = true
    · exact ⟨q,if_pos up⟩
    · rw [if_neg up]
      rcases mem_cons.mp member with rfl | later
      · exact absurd (answers n) up
      · exact ih later (n + 1)

theorem dialBestPeer_mem (found : dialBestPeer a stage candidates = some p) :
    p ∈ candidates ∧ a.late stage 0 = false ∧ ∃ m, a.dials stage m p = true := by
  grind [dialBestPeer,firstAnswer_mem]

theorem redirectLoop_peer {peers : List Peer} {n : Nat} (found : (redirectLoop S cfg a n peers).peer = some p) :
    p ∈ peers ∧ eligible S cfg a p = true ∧ ∃ m, a.late .sameCountry m = false ∧ a.dials .sameCountry m p = true := by
  induction peers generalizing n with
  | nil => cases found
  | cons q rest ih =>
    grind [redirectLoop]

theorem redirectLoop_failed {peers : List Peer} {n : Nat} (none_ : (redirectLoop S cfg a n peers).peer = none) :
    (∃ m, a.late .sameCountry m = true) ∨ ∀ q ∈ peers, eligible S cfg a q = true →
      ∃ m, (m,q) ∈ (redirectLoop S cfg a n peers).dialled ∧ a.dials .sameCountry m q = false := by
  induction peers generalizing n with
  | nil => exact .inr (fun q member => by cases member)
  | cons q rest ih =>
    grind [redirectLoop]

theorem eligible_iff : eligible S cfg a p = true ↔ cfg.isSelf p.addr = false ∧ p.region ≠ clientCC S cfg a := by
  simp [eligible]

/-- Some rule blocks the target from the region (`IsBlockedForRegion`). -/
def blockedFrom (S : Strings) (cfg : Config) (host region : Text) : Bool :=
  cfg.svcBlocks.any (fun entries => isBlockedForRegion S entries host (targetIP host) region)

section
variable (S : Strings) (cfg : Config) (a : Around)

def torrentCandidates : List Peer :=
  match cfg.peers, cfg.torrentAllowed with
  | some r, some ta =>
    if a.noForward then []
    else (r.shufflePeers a .torrent).filter (fun p => eligible S cfg a p && ta.isAllowed S p.addr)
  | _, _ => []

variable (r : Registry) (host : Text)

def serviceBlockCandidates : List Peer :=
  match cfg.svcBlocks with
  | none => []
  | some entries =>
    let blocked := isBlockedForRegion S entries host (targetIP host)
    if (r.myRegion ≠ [] ∨ cfg.providerTag ≠ []) ∧ (blocked r.myRegion ∨ blocked cfg.providerTag) then
      (r.shufflePeers a .serviceBlock).filter (fun p => eligible S cfg a p && !blocked p.region)
    else []

def geoCandidates : List Peer :=
  match cfg.cidrCache with
  | none => []
  | some lookupCountry =>
    if r.myRegion ≠ [] ∧ lookupCountry host ≠ [] ∧ lookupCountry host ≠ r.myRegion then
      (r.shufflePeers a .geo).filter (fun p => p.region = lookupCountry host && eligible S cfg a p)
    else []

def whitelistCandidates : List Peer :=
  match cfg.wl, cfg.probeDB with
  | some entries, some caps =>
    if isWhitelisted S entries host [] ∧ caps.lookup host = some false then
      (r.peersCapableOf a host).filter (eligible S cfg a)
    else []
  | _, _ => []

def fallbackCandidates : List Peer :=
  match cfg.peers with
  | none => []
  | some r => if a.noForward then [] else (r.shufflePeers a .fallback).filter (eligible S cfg a)

end

section
variable {r : Registry} {host : Text}

@[simp] theorem dialBestPeer_nil : dialBestPeer a stage [] = none := by
  simp [dialBestPeer,firstAnswer]

theorem torrentRedirect_candidates : torrentRedirect S cfg a = dialBestPeer a .torrent (torrentCandidates S cfg a) := by
  unfold torrentRedirect torrentCandidates
  cases cfg.peers with
  | none => simp
  | some r =>
    cases cfg.torrentAllowed with
    | none => simp
    | some ta => by_cases noForward : a.noForward = true <;> simp [noForward]

theorem serviceBlock_candidates :
    serviceBlock S cfg a r host = dialBestPeer a .serviceBlock (serviceBlockCandidates S cfg a r host) := by
  unfold serviceBlock serviceBlockCandidates
  cases cfg.svcBlocks with
  | none => simp
  | some entries =>
    simp only
    split_ifs
    · rfl
    · simp

theorem geoPeer_candidates : geoPeer S cfg a r host = dialBestPeer a .geo (geoCandidates S cfg a r host) := by
  unfold geoPeer geoCandidates
  cases cfg.cidrCache with
  | none => simp
  | some lookupCountry =>
    simp only
    split_ifs
    · rfl
    · simp

theorem whitelistPeer_candidates :
    whitelistPeer S cfg a r host = dialBestPeer a .whitelist (whitelistCandidates S cfg a r host) := by
  unfold whitelistPeer whitelistCandidates
  cases cfg.wl with
  | none => simp
  | some entries =>
    cases cfg.probeDB with
    | none => simp
    | some caps =>
      simp only
      split_ifs
      · rfl
      · simp

theorem fallbackPeer_candidates : fallbackPeer S cfg a = dialBestPeer a .fallback (fallbackCandidates S cfg a) := by
  unfold fallbackPeer fallbackCandidates
  cases cfg.peers with
  | none => simp
  | some r => by_cases noForward : a.noForward = true <;> simp [noForward]

structure Askable (S : Strings) (cfg : Config) (a : Around) (r : Registry) (p : Peer) : Prop where
  forwards : a.noForward = false
  peers : cfg.peers = some r
  offered : p ∈ Registry.offered r
  eligible : eligible S cfg a p = true

theorem named_of_blocked {region : Text} (blocked : blockedFrom S cfg host region = true) : region ≠ [] := by
  rintro rfl
  unfold blockedFrom at blocked
  cases entries : cfg.svcBlocks with
  | none => simp [entries] at blocked
  | some rules => simp [isBlockedForRegion] at blocked

theorem mem_serviceBlockCandidates : p ∈ serviceBlockCandidates S cfg a r host ↔
    (p ∈ Registry.offered r ∧ eligible S cfg a p = true) ∧
      (blockedFrom S cfg host r.myRegion = true ∨ blockedFrom S cfg host cfg.providerTag = true) ∧
      blockedFrom S cfg host p.region = false := by
  have named : (blockedFrom S cfg host r.myRegion = true ∨ blockedFrom S cfg host cfg.providerTag = true) →
      r.myRegion ≠ [] ∨ cfg.providerTag ≠ [] := Or.imp named_of_blocked named_of_blocked
  unfold serviceBlockCandidates
  cases blocks : cfg.svcBlocks with
  | none => simp [blockedFrom,blocks]
  | some entries =>
    simp only [blockedFrom,blocks,Option.any_some] at named ⊢
    split_ifs with here
    · rw [mem_filter,mem_shufflePeers]
      grind
    · grind

theorem mem_geoCandidates : p ∈ geoCandidates S cfg a r host ↔ (p ∈ Registry.offered r ∧ eligible S cfg a p = true) ∧
    r.myRegion ≠ [] ∧ ∃ lookupCountry, cfg.cidrCache = some lookupCountry ∧ lookupCountry host ≠ [] ∧
      lookupCountry host ≠ r.myRegion ∧ p.region = lookupCountry host := by
  unfold geoCandidates
  cases cache : cfg.cidrCache with
  | none => simp
  | some lookupCountry =>
    simp only [Option.some.injEq,exists_eq_left']
    split_ifs with applies
    · rw [mem_filter,mem_shufflePeers]
      grind
    · grind

theorem mem_whitelistCandidates : p ∈ whitelistCandidates S cfg a r host ↔
    (p ∈ Registry.offered r ∧ eligible S cfg a p = true) ∧
      (∃ entries caps, cfg.wl = some entries ∧ cfg.probeDB = some caps ∧ isWhitelisted S entries host [] = true ∧
        caps.lookup host = some false) ∧
      (r.alive.size = 0 ∨ r.lives p = true) ∧ (p.capabilities.bind (fun caps => caps.lookup host)).getD true = true := by
  have capable : p ∈ r.peersCapableOf a host ↔ p ∈ Registry.offered r ∧ (r.alive.size = 0 ∨ r.lives p = true) ∧
      (p.capabilities.bind (fun caps => caps.lookup host)).getD true = true := by
    rw [Registry.peersCapableOf,(a.shuffles .whitelist _).mem_iff,mem_filter]
    grind [Registry.offered]
  grind [whitelistCandidates]

theorem mem_fallbackCandidates : p ∈ fallbackCandidates S cfg a ↔ ∃ r, Askable S cfg a r p := by
  unfold fallbackCandidates
  constructor
  · intro member
    cases peers : cfg.peers with
    | none => simp [peers] at member
    | some r =>
      by_cases noForward : a.noForward = true
      · simp [peers,noForward] at member
      · simp only [peers,noForward] at member
        obtain ⟨listed,good⟩ := mem_filter.mp member
        exact ⟨r,by simpa using noForward,peers,mem_shufflePeers.mp listed,good⟩
  · rintro ⟨r,forwards,peers,offered,good⟩
    simp only [peers,forwards]
    exact mem_filter.mpr ⟨mem_shufflePeers.mpr offered,good⟩

def MayCarry (S : Strings) (cfg : Config) (p : Peer) : Prop :=
  ∃ ta, cfg.torrentAllowed = some ta ∧ ta.isAllowed S p.addr = true

theorem mem_torrentCandidates : p ∈ torrentCandidates S cfg a ↔ (∃ r, Askable S cfg a r p) ∧ MayCarry S cfg p := by
  unfold torrentCandidates
  constructor
  · intro member
    split at member
    · next r ta peers allowed =>
      by_cases noForward : a.noForward = true
      · simp [noForward] at member
      · simp only [noForward] at member
        obtain ⟨listed,good⟩ := mem_filter.mp member
        obtain ⟨good,may⟩ := Bool.and_eq_true_iff.mp good
        exact ⟨⟨r,by simpa using noForward,peers,mem_shufflePeers.mp listed,good⟩,ta,allowed,may⟩
    · cases member
  · rintro ⟨⟨r,forwards,peers,offered,good⟩,ta,allowed,may⟩
    simp only [peers,allowed,forwards]
    exact mem_filter.mpr ⟨mem_shufflePeers.mpr offered,Bool.and_eq_true_iff.mpr ⟨good,may⟩⟩

end

theorem route_cases (S : Strings) (cfg : Config) (a : Around) (isAnon : Bool) (host : Text) (port : Int)
    (payload : List UInt8) :
    route S cfg a isAnon host port payload = .refused ∨
    (∃ p, route S cfg a isAnon host port payload = .peer p ∧ torrentBarred cfg port payload = true ∧
      torrentRedirect S cfg a = some p) ∨
    torrentBarred cfg port payload = false ∧
      ((∃ p, route S cfg a isAnon host port payload = .peer p ∧ redirect S cfg a host = some p) ∨
        route S cfg a isAnon host port payload = .primary ∧ redirect S cfg a host = none ∧ a.late .primary 0 = false) := by
  unfold route
  grind

def carrier (S : Strings) (cfg : Config) (a : Around) (isAnon : Bool) (host : Text) (port : Int) (payload : List UInt8) :
    Option Peer :=
  match route S cfg a isAnon host port payload with
  | .refused => none
  | .peer p => some p
  | .primary => if dialable port && a.connects then none else fallbackPeer S cfg a

section
variable (S : Strings) (cfg : Config) (a : Around) (r : Registry) (host : Text)

/-- The candidates of a stage that dials them in a race. -/
def candidatesAt : Stage → List Peer
  | .torrent => torrentCandidates S cfg a
  | .serviceBlock => serviceBlockCandidates S cfg a r host
  | .geo => geoCandidates S cfg a r host
  | .whitelist => whitelistCandidates S cfg a r host
  | .fallback => fallbackCandidates S cfg a
  | .sameCountry | .primary => []

/-- The peer that a stage hands the connection to. -/
def answerAt : Stage → Option Peer
  | .torrent => torrentRedirect S cfg a
  | .sameCountry => (sameCountry S cfg a r).peer
  | .serviceBlock => serviceBlock S cfg a r host
  | .geo => geoPeer S cfg a r host
  | .whitelist => whitelistPeer S cfg a r host
  | .primary => none
  | .fallback => fallbackPeer S cfg a

/-- Whether a stage dials a peer that is on offer and eligible: the first one decides what is taken
    for BitTorrent, the others the rest. -/
def Asks (port : Int) (payload : List UInt8) (p : Peer) : Stage → Prop
  | .torrent => torrentBarred cfg port payload = true ∧ MayCarry S cfg p
  | .sameCountry => torrentBarred cfg port payload = false ∧ atHome S cfg a r = true
  | .serviceBlock => torrentBarred cfg port payload = false ∧
      (blockedFrom S cfg host r.myRegion = true ∨ blockedFrom S cfg host cfg.providerTag = true) ∧
      blockedFrom S cfg host p.region = false
  | .geo => torrentBarred cfg port payload = false ∧ r.myRegion ≠ [] ∧ ∃ lookupCountry,
      cfg.cidrCache = some lookupCountry ∧ lookupCountry host ≠ [] ∧ lookupCountry host ≠ r.myRegion ∧
      p.region = lookupCountry host
  | .whitelist => torrentBarred cfg port payload = false ∧
      (∃ entries caps, cfg.wl = some entries ∧ cfg.probeDB = some caps ∧ isWhitelisted S entries host [] = true ∧
        caps.lookup host = some false) ∧
      (r.alive.size = 0 ∨ r.lives p = true) ∧ (p.capabilities.bind (fun caps => caps.lookup host)).getD true = true
  | .primary => False
  | .fallback => torrentBarred cfg port payload = false

end

section
variable {r : Registry} {host : Text} {port : Int} {payload : List UInt8} {isAnon : Bool}

theorem answerAt_race (race : stage ≠ .sameCountry) :
    answerAt S cfg a r host stage = dialBestPeer a stage (candidatesAt S cfg a r host stage) := by
  cases stage with
  | torrent => exact torrentRedirect_candidates
  | sameCountry => exact absurd rfl race
  | serviceBlock => exact serviceBlock_candidates
  | geo => exact geoPeer_candidates
  | whitelist => exact whitelistPeer_candidates
  | primary => exact dialBestPeer_nil.symm
  | fallback => exact fallbackPeer_candidates

theorem candidatesAt_ordered (stage : Stage) :
    ∃ l keep, candidatesAt S cfg a r host stage = (a.shuffle stage l).filter keep := by
  have none_ {stage : Stage} : ∃ l keep, [] = (a.shuffle stage l).filter keep :=
    ⟨[],fun _ => true,by simp [(a.shuffles stage []).eq_nil]⟩
  cases stage with
  | torrent =>
    simp only [candidatesAt,torrentCandidates]
    repeat' split
    all_goals first | exact none_ | exact ⟨_,_,rfl⟩
  | serviceBlock =>
    simp only [candidatesAt,serviceBlockCandidates]
    repeat' split
    all_goals first | exact none_ | exact ⟨_,_,rfl⟩
  | geo =>
    simp only [candidatesAt,geoCandidates]
    repeat' split
    all_goals first | exact none_ | exact ⟨_,_,rfl⟩
  | whitelist =>
    simp only [candidatesAt,whitelistCandidates]
    repeat' split
    all_goals first | exact none_ | exact ⟨_,_,rfl⟩
  | fallback =>
    simp only [candidatesAt,fallbackCandidates]
    repeat' split
    all_goals first | exact none_ | exact ⟨_,_,rfl⟩
  | sameCountry => exact none_
  | primary => exact none_

variable (forwards : a.noForward = false) (known : cfg.peers = some r)
include forwards known

theorem askable_iff {r' : Registry} : Askable S cfg a r' p ↔ r' = r ∧ p ∈ Registry.offered r ∧ eligible S cfg a p = true := by
  constructor
  · rintro ⟨-,same,offered,good⟩
    obtain rfl : r = r' := Option.some.inj (known.symm.trans same)
    exact ⟨rfl,offered,good⟩
  · rintro ⟨rfl,offered,good⟩
    exact ⟨forwards,known,offered,good⟩

variable (due : stage = .torrent ↔ torrentBarred cfg port payload = true)
include due

theorem mem_candidatesAt (race : stage ≠ .sameCountry) : p ∈ candidatesAt S cfg a r host stage ↔
    (p ∈ Registry.offered r ∧ eligible S cfg a p = true) ∧ Asks S cfg a r host port payload p stage := by
  have plain : stage ≠ .torrent → torrentBarred cfg port payload = false := by simp [due]
  cases stage with
  | torrent => simp [candidatesAt,Asks,mem_torrentCandidates,askable_iff forwards known,due.mp rfl]
  | sameCountry => exact absurd rfl race
  | serviceBlock => simp [candidatesAt,Asks,mem_serviceBlockCandidates,plain]
  | geo => simp [candidatesAt,Asks,mem_geoCandidates,plain]
  | whitelist => simp [candidatesAt,Asks,mem_whitelistCandidates,plain]
  | primary => simp [candidatesAt,Asks]
  | fallback => simp [candidatesAt,Asks,mem_fallbackCandidates,askable_iff forwards known,plain]

theorem answerAt_asked (found : answerAt S cfg a r host stage = some p) :
    (p ∈ Registry.offered r ∧ eligible S cfg a p = true) ∧ Asks S cfg a r host port payload p stage ∧
      ∃ m n, a.late stage m = false ∧ a.dials stage n p = true := by
  by_cases home : stage = .sameCountry
  · subst home
    have plain : torrentBarred cfg port payload = false := by simpa using due
    simp only [answerAt,sameCountry] at found
    split_ifs at found with there
    obtain ⟨member,good,m,inTime,dials⟩ := redirectLoop_peer found
    exact ⟨⟨mem_shufflePeers.mp member,good⟩,⟨plain,there⟩,m,m,inTime,dials⟩
  · rw [answerAt_race home] at found
    obtain ⟨member,inTime,n,dials⟩ := dialBestPeer_mem found
    obtain ⟨listed,asks⟩ := (mem_candidatesAt forwards known due home).mp member
    exact ⟨listed,asks,0,n,inTime,dials⟩

theorem late_of_unanswered (listed : p ∈ Registry.offered r ∧ eligible S cfg a p = true)
    (asks : Asks S cfg a r host port payload p stage) (answers : ∀ n, a.dials stage n p = true)
    (none_ : answerAt S cfg a r host stage = none) : ∃ m, a.late stage m = true := by
  by_cases home : stage = .sameCountry
  · subst home
    simp only [answerAt,sameCountry,if_pos asks.2] at none_
    refine (redirectLoop_failed none_).resolve_right ?_
    intro all
    obtain ⟨m,-,fails⟩ := all p (mem_shufflePeers.mpr listed.1) listed.2
    simp [answers m] at fails
  · rw [answerAt_race home] at none_
    obtain ⟨q,found⟩ := firstAnswer_some ((mem_candidatesAt forwards known due home).mpr ⟨listed,asks⟩) answers 0
    refine ⟨0,Bool.of_not_eq_false ?_⟩
    intro inTime
    simp [dialBestPeer,inTime,found] at none_

end

section
variable {isAnon : Bool} {host : Text} {port : Int} {payload : List UInt8} {r : Registry}

theorem carrier_eq (accepted : cfg.refuses S isAnon host = false) (forwards : a.noForward = false)
    (known : cfg.peers = some r) : carrier S cfg a isAnon host port payload =
      if torrentBarred cfg port payload then answerAt S cfg a r host .torrent
      else (answerAt S cfg a r host .sameCountry).or ((answerAt S cfg a r host .serviceBlock).or
        ((answerAt S cfg a r host .geo).or ((answerAt S cfg a r host .whitelist).or
          (if a.late .primary 0 || dialable port && a.connects then none else answerAt S cfg a r host .fallback)))) := by
  unfold carrier route
  simp only [accepted,Bool.false_eq_true,if_false,redirect,known,forwards,answerAt]
  grind

/-- A connection goes to the first stage that has a peer for it. -/
theorem carrier_answer (found : carrier S cfg a isAnon host port payload = some p) : a.noForward = false ∧ ∃ r stage,
    cfg.peers = some r ∧ (stage = .torrent ↔ torrentBarred cfg port payload = true) ∧ answerAt S cfg a r host stage = some p ∧
      ∀ earlier, earlier.place < stage.place → (earlier = .torrent ↔ torrentBarred cfg port payload = true) →
        answerAt S cfg a r host earlier = none := by
  have accepted : cfg.refuses S isAnon host = false := by grind [carrier,route]
  obtain ⟨forwards,r,known⟩ : a.noForward = false ∧ ∃ r, cfg.peers = some r := by
    grind [carrier,route,torrentRedirect,redirect,fallbackPeer]
  refine ⟨forwards,r,?_⟩
  rw [carrier_eq accepted forwards known] at found
  split_ifs at found with barred
  · exact ⟨.torrent,known,by simp [barred],found,fun earlier less => absurd less (Nat.not_lt_zero _)⟩
  all_goals
    simp only [Option.or_eq_some_iff] at found
    rcases found with home | ⟨home,block | ⟨block,geo | ⟨geo,listed | ⟨listed,last⟩⟩⟩⟩
  all_goals first
    | exact ⟨.sameCountry,known,by simp [barred],home,fun earlier less => by cases earlier <;> simp_all [Stage.place]⟩
    | exact ⟨.serviceBlock,known,by simp [barred],block,fun earlier less => by cases earlier <;> simp_all [Stage.place]⟩
    | exact ⟨.geo,known,by simp [barred],geo,fun earlier less => by cases earlier <;> simp_all [Stage.place]⟩
    | exact ⟨.whitelist,known,by simp [barred],listed,fun earlier less => by cases earlier <;> simp_all [Stage.place]⟩
    | exact ⟨.fallback,known,by simp [barred],last,fun earlier less => by cases earlier <;> simp_all [Stage.place,answerAt]⟩
    | cases last

theorem carrier_of_answer (accepted : cfg.refuses S isAnon host = false) (forwards : a.noForward = false)
    (known : cfg.peers = some r) (due : stage = .torrent ↔ torrentBarred cfg port payload = true)
    (inTime : a.late .primary 0 = false) (down : a.connects = false) (answer : answerAt S cfg a r host stage = some p)
    (before : ∀ earlier, earlier.place < stage.place → (earlier = .torrent ↔ torrentBarred cfg port payload = true) →
      answerAt S cfg a r host earlier = none) : carrier S cfg a isAnon host port payload = some p := by
  rw [carrier_eq accepted forwards known]
  by_cases torrent : stage = .torrent
  · subst torrent
    rw [if_pos (due.mp rfl),answer]
  · have plain : torrentBarred cfg port payload = false := by simpa [due] using torrent
    have silent (earlier : Stage) (less : earlier.place < stage.place) (other : earlier ≠ .torrent) :
        answerAt S cfg a r host earlier = none := before earlier less (by simp [plain,other])
    rw [if_neg (by simp [plain])]
    cases stage with
    | torrent => exact absurd rfl torrent
    | sameCountry => simp [answer]
    | serviceBlock => simp [answer,silent .sameCountry (by decide)]
    | geo => simp [answer,silent .sameCountry (by decide),silent .serviceBlock (by decide)]
    | whitelist => simp [answer,silent .sameCountry (by decide),silent .serviceBlock (by decide),silent .geo (by decide)]
    | primary => cases answer
    | fallback =>
      simp [silent .sameCountry (by decide),silent .serviceBlock (by decide),silent .geo (by decide),
        silent .whitelist (by decide),inTime,down,answer]

end

end

section
variable {S : Strings} {cfg : Config} {a : Call} {pool : Pool} {isAnon : Bool} {f : UploadFrame}

theorem getOrCreate_fresh (fresh : pool.lookup f.connID = none) (host : Text) (port : Int) (opened : Option (List HostRule)) :
    (getOrCreate a.connects pool f.connID host port opened).pool.lookup f.connID =
        (getOrCreate a.connects pool f.connID host port opened).found ∧
      (getOrCreate a.connects pool f.connID host port opened).found =
        if dialable port && a.connects then some ⟨⟨host,port,none⟩,.fresh,false,opened⟩ else none := by
  grind [getOrCreate]

theorem connect_carrier (fresh : pool.lookup f.connID = none) {p : Pooled}
    (registered : (connect S cfg a isAnon pool f).1.lookup f.connID = some p) :
    ∃ host port, hostAndPort (text f.target) = some (host,port) ∧
      p.conn = ⟨host,port,(carrier S cfg a.toAround isAnon host port f.payload).map (fun q => q.addr)⟩ := by
  unfold connect at registered
  grind [send404,carrier,store,getOrCreate_fresh]

theorem connect_dialed {host : Text} {port : Int} (dialed : Effect.dialed host port ∈ (connect S cfg a isAnon pool f).2.effects) :
    ∃ host, redirect S cfg a.toAround host = none ∧ a.late .primary 0 = false := by
  unfold connect at dialed
  grind [send404,route_cases]

end

theorem failed_of_alone {S : Strings} {cfg : Config} {a : Around} {r : Registry} {host : Text} (peers : cfg.peers = some r)
    (forwards : a.noForward = false) (home : atHome S cfg a r = true) (alone : redirect S cfg a host = none)
    (inTime : a.late .primary 0 = false) : ∀ q ∈ r.shufflePeers a .sameCountry, eligible S cfg a q = true →
      ∃ n, (n,q) ∈ (sameCountry S cfg a r).dialled ∧ a.dials .sameCountry n q = false := by
  simp only [redirect,peers,forwards,Bool.false_eq_true,if_false,Option.or_eq_none_iff] at alone
  have none_ := alone.1
  unfold sameCountry at none_ ⊢
  rw [if_pos home] at none_ ⊢
  rcases redirectLoop_failed none_ with ⟨m,late⟩ | all
  · -- the clock does not go back, so the exit would have given up
    have later := a.forward .sameCountry m .primary 0 (.inl (by decide)) late
    rw [inTime] at later
    cases later
  · exact all

theorem home_avoided (S : Strings) (cfg : Config) (a : Call) (pool : Pool) (r : Request) (f : UploadFrame)
    (frame : r.frame = some (.upload f)) (first : f.seq = 0) (fresh : pool.lookup f.connID = none) :
    (∀ p, (handleTunnel S cfg a pool r).1.lookup f.connID = some p → p.conn.via = none ∨
      ∃ reg q, cfg.peers = some reg ∧ q ∈ reg.peers ∧ p.conn.via = some q.addr ∧ q.region ≠ clientCC S cfg a.toAround) ∧
    (a.noForward = true → ∀ p, (handleTunnel S cfg a pool r).1.lookup f.connID = some p → p.conn.via = none) ∧
    (∀ reg host port, cfg.peers = some reg → a.noForward = false → atHome S cfg a.toAround reg = true →
      Effect.dialed host port ∈ (handleTunnel S cfg a pool r).2.effects →
      ∀ q ∈ reg.shufflePeers a.toAround .sameCountry, q.region ≠ clientCC S cfg a.toAround → cfg.isSelf q.addr = false →
        ∃ n, (n,q) ∈ (sameCountry S cfg a.toAround reg).dialled ∧ a.dials .sameCountry n q = false) := by
  have serves : handleTunnel S cfg a pool r = connect S cfg a (cfg.isAnon r.token) pool f ∨
      (handleTunnel S cfg a pool r).1 = pool ∧ (handleTunnel S cfg a pool r).2.effects = [] := by
    unfold handleTunnel
    cases anon : cfg.isAnon r.token with
    | true => exact .inl (by simp [tunnelFrame,frame,first])
    | false =>
      cases verdict : a.verdict with
      | accepted => exact .inl (by simp [tunnelFrame,frame,first])
      | denied => exact .inr ⟨rfl,rfl⟩
      | transient => exact .inr ⟨rfl,rfl⟩
  rcases serves with connects | ⟨kept,silent⟩
  · rw [connects]
    -- a registered connection that is not direct has a carrier
    have carried {p : Pooled} (registered : (connect S cfg a (cfg.isAnon r.token) pool f).1.lookup f.connID = some p) :
        p.conn.via = none ∨ a.noForward = false ∧ ∃ reg q, cfg.peers = some reg ∧ q ∈ reg.peers ∧
          p.conn.via = some q.addr ∧ q.region ≠ clientCC S cfg a.toAround := by
      obtain ⟨host,port,-,conn⟩ := connect_carrier fresh registered
      cases found : carrier S cfg a.toAround (cfg.isAnon r.token) host port f.payload with
      | none => exact .inl (by simp [conn,found])
      | some q =>
        obtain ⟨forwards,reg,stage,known,due,answer,-⟩ := carrier_answer found
        obtain ⟨⟨offered,good⟩,-⟩ := answerAt_asked forwards known due answer
        exact .inr ⟨forwards,reg,q,known,mem_peers_of_offered offered,by simp [conn,found],(eligible_iff.mp good).2⟩
    refine ⟨fun p registered => (carried registered).imp_right And.right,?_,?_⟩
    · intro noForward p registered
      refine (carried registered).resolve_right ?_
      rintro ⟨forwards,-⟩
      simp [noForward] at forwards
    · intro reg host port peers forwards home dialed q member abroad other
      obtain ⟨host',alone,inTime⟩ := connect_dialed dialed
      exact failed_of_alone peers forwards home alone inTime q member (eligible_iff.mpr ⟨other,abroad⟩)
  · rw [kept,silent]
    refine ⟨?_,?_,?_⟩
    · intro p registered
      rw [fresh] at registered
      cases registered
    · intro _ p registered
      rw [fresh] at registered
      cases registered
    · intro _ _ _ _ _ _ dialed
      cases dialed

section
variable (S : Strings) (cfg : Config) (a : Around) (host : Text)

/-- A live peer outside the client's country and the blocked regions that takes every dial. -/
structure Available (r : Registry) (p : Peer) : Prop where
  offered : p ∈ Registry.offered r
  foreign : eligible S cfg a p = true
  unblocked : blockedFrom S cfg host p.region = false
  answers : ∀ stage n, a.dials stage n p = true

/-- A connection goes through a blocked region only where no other peer is available. -/
def Honoured (isAnon : Bool) (port : Int) (payload : List UInt8) : Prop :=
  ∀ q, carrier S cfg a isAnon host port payload = some q → blockedFrom S cfg host q.region = true →
    ∀ r p, cfg.peers = some r → ¬ Available S cfg a host r p

/-- Some stage may dial a peer in a blocked region, and a peer that is on offer, eligible and not
    blocked is dialled by no stage before it. -/
def Exposed (port : Int) (payload : List UInt8) : Prop :=
  ∃ r stage q p, cfg.peers = some r ∧ (q ∈ Registry.offered r ∧ eligible S cfg a q = true) ∧
    Asks S cfg a r host port payload q stage ∧ blockedFrom S cfg host q.region = true ∧
    (p ∈ Registry.offered r ∧ eligible S cfg a p = true) ∧ blockedFrom S cfg host p.region = false ∧
    ∀ earlier, earlier.place < stage.place → ¬ Asks S cfg a r host port payload p earlier

end

/-- The same request from the same client; the shuffles, the clock and the dials may differ. -/
structure SameRequest (a a' : Around) : Prop where
  noForward : a'.noForward = a.noForward
  clientCC : a'.clientCC = a.clientCC
  clientIP : a'.clientIP = a.clientIP
  remoteIP : a'.remoteIP = a.remoteIP

section
variable {S : Strings} {cfg : Config} {a a' : Around} {host : Text} {port : Int} {payload : List UInt8}

variable (same : SameRequest a a')
include same

theorem SameRequest.clientCC_eq : Egress.clientCC S cfg a' = Egress.clientCC S cfg a := by
  unfold Egress.clientCC
  rw [same.clientCC,same.clientIP,same.remoteIP]

theorem SameRequest.eligible_eq (p : Peer) : eligible S cfg a' p = eligible S cfg a p := by
  unfold eligible
  rw [same.clientCC_eq]

theorem SameRequest.asks_iff {r : Registry} {p : Peer} {stage : Stage} :
    Asks S cfg a' r host port payload p stage ↔ Asks S cfg a r host port payload p stage := by
  cases stage <;> simp [Asks,atHome,same.clientCC_eq]

theorem SameRequest.exposed (exposed : Exposed S cfg a' host port payload) :
    Exposed S cfg a host port payload := by
  simpa only [Exposed,same.eligible_eq,same.asks_iff] using exposed

omit same

theorem due_of_asks {r : Registry} {p : Peer} {stage : Stage} (asks : Asks S cfg a r host port payload p stage) :
    stage = .torrent ↔ torrentBarred cfg port payload = true := by
  cases stage <;> simp_all [Asks]

theorem exposed_of_passed {isAnon : Bool} (broken : ¬ Honoured S cfg a host isAnon port payload) :
    a.noForward = false ∧ Exposed S cfg a host port payload := by
  simp only [Honoured,not_forall,not_not] at broken
  obtain ⟨q,carries,blocked,r,p,known,available⟩ := broken
  obtain ⟨forwards,r',stage,known',due,answer,before⟩ := carrier_answer carries
  obtain rfl : r = r' := Option.some.inj (known.symm.trans known')
  obtain ⟨listed,asks,m,-,inTime,-⟩ := answerAt_asked forwards known due answer
  refine ⟨forwards,r,stage,q,p,known,listed,asks,blocked,⟨available.offered,available.foreign⟩,available.unblocked,?_⟩
  intro earlier less asked
  -- the stage before would have had the other peer, unless the time was up; then it is up later too
  have due' := due_of_asks asked
  obtain ⟨k,late⟩ := late_of_unanswered forwards known due' ⟨available.offered,available.foreign⟩ asked
    (available.answers earlier) (before earlier less due')
  have later := a.forward earlier k stage m (.inl less) late
  rw [inTime] at later
  cases later

open Classical in
/-- The surroundings in which `p` takes every dial, `q` those of one stage, where it comes first, and
    nobody else any. -/
noncomputable def favouring (a : Around) (stage : Stage) (q p : Peer) : Around where
  noForward := a.noForward
  clientCC := a.clientCC
  clientIP := a.clientIP
  remoteIP := a.remoteIP
  shuffle _ peers := peers.filter (· = q) ++ peers.filter (fun x => !decide (x = q))
  shuffles _ peers := filter_append_perm _ peers
  late _ _ := false
  forward _ _ _ _ _ up := up
  dials stage' _ x := x = p ∨ x = q ∧ stage' = stage
  connects := false

section
variable {r : Registry} {stage : Stage} {p q : Peer}

theorem shuffle_front {keep : Peer → Bool} {l : List Peer}
    (member : q ∈ ((favouring a stage q p).shuffle stage l).filter keep) :
    ∃ rest, ((favouring a stage q p).shuffle stage l).filter keep = q :: rest := by
  obtain ⟨listed,kept⟩ := mem_filter.mp member
  have here : q ∈ l := ((favouring a stage q p).shuffles stage l).mem_iff.mp listed
  classical
  have own : q ∈ (l.filter (fun x => decide (x = q))).filter keep := by simp [here,kept]
  obtain ⟨x,rest,is⟩ := exists_cons_of_ne_nil (ne_nil_of_mem own)
  have first : x = q := by
    have head : x ∈ (l.filter (fun x => decide (x = q))).filter keep := is ▸ mem_cons_self
    simpa using (mem_filter.mp (mem_filter.mp head).1).2
  rw [first] at is
  refine ⟨rest ++ (l.filter (fun x => !decide (x = q))).filter keep,?_⟩
  simp only [favouring,filter_append,is,cons_append]

theorem answerAt_front (forwards : a.noForward = false) (known : cfg.peers = some r)
    (listed : q ∈ Registry.offered r ∧ eligible S cfg a q = true) (asks : Asks S cfg a r host port payload q stage) :
    answerAt S cfg (favouring a stage q p) r host stage = some q := by
  have same : SameRequest a (favouring a stage q p) := ⟨rfl,rfl,rfl,rfl⟩
  have good : eligible S cfg (favouring a stage q p) q = true := by rw [same.eligible_eq]; exact listed.2
  have dials (n : Nat) : (favouring a stage q p).dials stage n q = true := by simp [favouring]
  by_cases home : stage = .sameCountry
  · subst home
    have there : atHome S cfg (favouring a .sameCountry q p) r = true := (same.asks_iff.mpr asks).2
    have member : q ∈ (r.shufflePeers (favouring a .sameCountry q p) .sameCountry).filter (fun _ => true) := by
      simpa using mem_shufflePeers.mpr listed.1
    obtain ⟨rest,front⟩ := shuffle_front member
    rw [filter_true] at front
    simp only [answerAt,sameCountry,if_pos there]
    rw [show r.shufflePeers (favouring a .sameCountry q p) .sameCountry = q :: rest from front,redirectLoop,
      if_neg (by simp [favouring]),if_neg (by simp [good]),if_pos (dials 0)]
  · rw [answerAt_race home]
    have member : q ∈ candidatesAt S cfg (favouring a stage q p) r host stage :=
      (mem_candidatesAt (a := favouring a stage q p) forwards known (due_of_asks asks) home).mpr ⟨⟨listed.1,good⟩,same.asks_iff.mpr asks⟩
    obtain ⟨l,keep,order⟩ := @candidatesAt_ordered S cfg (favouring a stage q p) r host stage
    rw [order] at member ⊢
    obtain ⟨rest,front⟩ := shuffle_front member
    rw [front]
    simp [dialBestPeer,firstAnswer,favouring]

theorem answerAt_silent (forwards : a.noForward = false) (known : cfg.peers = some r) {earlier : Stage}
    (due : earlier = .torrent ↔ torrentBarred cfg port payload = true) (other : earlier ≠ stage)
    (unasked : ¬ Asks S cfg a r host port payload p earlier) :
    answerAt S cfg (favouring a stage q p) r host earlier = none := by
  have same : SameRequest a (favouring a stage q p) := ⟨rfl,rfl,rfl,rfl⟩
  cases found : answerAt S cfg (favouring a stage q p) r host earlier with
  | none => rfl
  | some x =>
    obtain ⟨-,asks,m,n,-,dials⟩ := answerAt_asked (a := favouring a stage q p) forwards known due found
    obtain rfl | ⟨-,is⟩ : x = p ∨ x = q ∧ earlier = stage := by simpa [favouring] using dials
    · exact absurd (same.asks_iff.mp asks) unasked
    · exact absurd is other

end

theorem passed_of_exposed {isAnon : Bool} (accepted : cfg.refuses S isAnon host = false) (forwards : a.noForward = false)
    (exposed : Exposed S cfg a host port payload) :
    ∃ a', SameRequest a a' ∧ ¬ Honoured S cfg a' host isAnon port payload := by
  obtain ⟨r,stage,q,p,known,listed,asks,blocked,spare,unblocked,before⟩ := exposed
  have same : SameRequest a (favouring a stage q p) := ⟨rfl,rfl,rfl,rfl⟩
  refine ⟨favouring a stage q p,same,?_⟩
  intro honoured
  have front := answerAt_front (p := p) forwards known listed asks
  have silent (earlier : Stage) (less : earlier.place < stage.place)
      (due : earlier = .torrent ↔ torrentBarred cfg port payload = true) :
      answerAt S cfg (favouring a stage q p) r host earlier = none := by
    refine answerAt_silent forwards known due ?_ (before earlier less)
    rintro rfl
    exact absurd less (Nat.lt_irrefl _)
  refine honoured q ?_ blocked r p known ⟨spare.1,by rw [same.eligible_eq]; exact spare.2,unblocked,fun _ _ => by simp [favouring]⟩
  exact carrier_of_answer accepted forwards known (due_of_asks asks) rfl rfl front silent

theorem blocks_honoured_iff (S : Strings) (cfg : Config) (a : Around) (isAnon : Bool) (host : Text) (port : Int)
    (payload : List UInt8) :
    (∀ a', SameRequest a a' → Honoured S cfg a' host isAnon port payload) ↔
      cfg.refuses S isAnon host = true ∨ a.noForward = true ∨ ¬ Exposed S cfg a host port payload := by
  constructor
  · intro honoured
    by_contra broken
    simp only [not_or,not_not,Bool.not_eq_true] at broken
    obtain ⟨accepted,forwards,exposed⟩ := broken
    obtain ⟨a',same,passed⟩ := passed_of_exposed accepted forwards exposed
    exact passed (honoured a' same)
  · rintro safe a' same
    by_contra broken
    obtain ⟨forwards,exposed⟩ := exposed_of_passed broken
    rcases safe with refused | noForward | safe
    · refine broken (fun q carries => ?_)
      simp [carrier,route,refused] at carries
    · rw [same.noForward,noForward] at forwards
      cases forwards
    · exact safe (same.exposed exposed)

end

def samplePeers : List Peer := [⟨"198.51.100.1:443".toList,"RU".toList,none⟩,⟨"198.51.100.2:443".toList,"NL".toList,none⟩]

def sampleConfig (region : String) : Config :=
  { Config.bare with
    peers := some ⟨region.toList,samplePeers,∅⟩
    svcBlocks := some [(.domain "voice.test".toList,["RU".toList])] }

def sampleAround (peersUp exitUp : Bool) : Around :=
  { Around.alone with noForward := false, clientCC := "DE".toList, dials := fun _ _ _ => peersUp, connects := exitUp }

def sampleCall (peersUp exitUp : Bool) : Call :=
  { sampleAround peersUp exitUp with verdict := .accepted, received := [], closed := false }

def sampleConnect : UploadFrame := ⟨sampleID,0,bytes "voice.test:443".toList,[]⟩

def sampleRequest : Request := ⟨[],some (buildUploadPlain sampleID 0 (bytes "voice.test:443".toList) [])⟩

theorem sampleRequest_frame : sampleRequest.frame = some (.upload sampleConnect) := by
  have short : (bytes "voice.test:443".toList).length < 65536 := by decide
  exact readFrame_upload (parse_build sampleID 0 _ [] short)

/-- The exit in DE dials itself when no peer answers, after it has tried the one in NL. -/
theorem home_avoided_alone : ∃ n, (n,⟨"198.51.100.2:443".toList,"NL".toList,none⟩) ∈
      (sameCountry .ascii (sampleConfig "DE") (sampleAround false true) ⟨"DE".toList,samplePeers,∅⟩).dialled ∧
    (sampleAround false true).dials .sameCountry n ⟨"198.51.100.2:443".toList,"NL".toList,none⟩ = false := by
  have dialed : Effect.dialed "voice.test".toList 443 ∈
      (handleTunnel .ascii (sampleConfig "DE") (sampleCall false true) ∅ sampleRequest).2.effects := by
    decide +kernel
  have rule := (home_avoided .ascii (sampleConfig "DE") (sampleCall false true) ∅ sampleRequest sampleConnect
    sampleRequest_frame rfl rfl).2.2 _ _ _ rfl rfl (by decide) dialed
  refine rule _ (mem_shufflePeers.mpr ?_) (by decide) (by decide)
  simp [Registry.offered,Table.size,samplePeers]

/-- An exit in the client's country hands the connection to the first peer that answers,
    also if it is the one in the blocked region. -/
theorem block_passed_over : ¬ ∀ S cfg a host isAnon port payload, Honoured S cfg a host isAnon port payload := by
  intro all
  have blocked : blockedFrom .ascii (sampleConfig "DE") "voice.test".toList "RU".toList = true := by decide
  have carries : carrier .ascii (sampleConfig "DE") (sampleAround true true) false "voice.test".toList 443 [] =
      some ⟨"198.51.100.1:443".toList,"RU".toList,none⟩ := rfl
  have available : Available .ascii (sampleConfig "DE") (sampleAround true true) "voice.test".toList
      ⟨"DE".toList,samplePeers,∅⟩ ⟨"198.51.100.2:443".toList,"NL".toList,none⟩ :=
    ⟨by simp [Registry.offered,samplePeers,Table.size],by decide,by decide,fun _ _ => rfl⟩
  exact all .ascii _ _ _ false 443 [] _ carries blocked _ _ rfl available

end TunnelCat.Forwarding
