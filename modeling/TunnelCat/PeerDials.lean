import TunnelCat.Forwarding

/-!
Which peers an exit dials for a connect (`snc-exit/handler.go`, `peer_conn.go`). `dialBestPeer` dials
all its candidates at once. Every stage leaves out the addresses in `selfIPs`, but those are hosts and
the arbiter lists exits with their ports: an exit that is on its own list dials itself
(`self_not_dialled_iff`).
-/
namespace TunnelCat.PeerDials
open Egress Forwarding HostPort Tunnel List

def fetchExitList (nodes : List Text) (regions : Table Text Text) : List Peer :=
  nodes.map (fun addr => ⟨addr,(regions.lookup addr).getD [],none⟩)

def peerHost (addr : Text) : Option Text :=
  (splitHostPort (if ':' ∈ addr then addr else addr ++ ":443".toList)).map Prod.fst

/-- The host of a peer is one of the exit's own addresses. -/
def Own (cfg : Config) (p : Peer) : Prop := ∃ host ∈ peerHost p.addr, cfg.isSelf host = true

section
variable (S : Strings) (cfg : Config) (a : Around)

def raced (stage : Stage) (candidates : List Peer) : List Peer := if a.late stage 0 then [] else candidates

def redirectDials (host : Text) : List Peer :=
  match cfg.peers with
  | none => []
  | some r =>
    if a.noForward then []
    else
      let home := sameCountry S cfg a r
      home.dialled.map Prod.snd ++
        if home.peer.isSome then []
        else raced a .serviceBlock (serviceBlockCandidates S cfg a r host) ++
          if (serviceBlock S cfg a r host).isSome then []
          else raced a .geo (geoCandidates S cfg a r host) ++
            if (geoPeer S cfg a r host).isSome then []
            else raced a .whitelist (whitelistCandidates S cfg a r host)

def dialled (isAnon : Bool) (host : Text) (port : Int) (payload : List UInt8) : List Peer :=
  if cfg.refuses S isAnon host then []
  else if torrentBarred cfg port payload then raced a .torrent (torrentCandidates S cfg a)
  else redirectDials S cfg a host ++
    match route S cfg a isAnon host port payload with
    | .primary => if dialable port && a.connects then [] else raced a .fallback (fallbackCandidates S cfg a)
    | _ => []

end

section
variable {S : Strings} {cfg : Config} {a : Around} {stage : Stage} {r : Registry} {host : Text} {p : Peer}

theorem mem_of_raced {candidates : List Peer} (member : p ∈ raced a stage candidates) : p ∈ candidates := by
  grind [raced]

theorem redirectLoop_dialled {peers : List Peer} {n : Nat}
    (member : p ∈ (redirectLoop S cfg a n peers).dialled.map Prod.snd) : p ∈ peers ∧ Egress.eligible S cfg a p = true := by
  induction peers generalizing n with
  | nil => simp [redirectLoop] at member
  | cons q rest ih =>
    grind [redirectLoop]

theorem mem_of_unless {c : Prop} [Decidable c] {l l' : List Peer} (member : p ∈ l ++ if c then [] else l') :
    p ∈ l ∨ p ∈ l' := by
  grind

theorem redirectDials_askable (member : p ∈ redirectDials S cfg a host) : ∃ r, Askable S cfg a r p := by
  unfold redirectDials at member
  cases peers : cfg.peers with
  | none => simp [peers] at member
  | some r =>
    simp only [peers] at member
    by_cases noForward : a.noForward = true
    · simp [noForward] at member
    · rw [if_neg noForward] at member
      suffices asked : p ∈ Registry.offered r ∧ Egress.eligible S cfg a p = true from
        ⟨r,by simpa using noForward,peers,asked.1,asked.2⟩
      rcases mem_of_unless member with home | member
      · unfold sameCountry at home
        split_ifs at home
        · obtain ⟨listed,good⟩ := redirectLoop_dialled home
          exact ⟨mem_shufflePeers.mp listed,good⟩
        · simp at home
      · rcases mem_of_unless member with block | member
        · exact (mem_serviceBlockCandidates.mp (mem_of_raced block)).1
        · rcases mem_of_unless member with geo | listed
          · exact (mem_geoCandidates.mp (mem_of_raced geo)).1
          · exact (mem_whitelistCandidates.mp (mem_of_raced listed)).1

theorem askable_of_dialled {isAnon : Bool} {port : Int} {payload : List UInt8}
    (member : p ∈ dialled S cfg a isAnon host port payload) :
    cfg.refuses S isAnon host = false ∧ (∃ r, Askable S cfg a r p) ∧
      (torrentBarred cfg port payload = true → MayCarry S cfg p) := by
  unfold dialled at member
  by_cases refused : cfg.refuses S isAnon host = true
  · simp [refused] at member
  · rw [if_neg refused] at member
    refine ⟨by simpa using refused,?_⟩
    by_cases barred : torrentBarred cfg port payload = true
    · rw [if_pos barred] at member
      obtain ⟨askable,may⟩ := mem_torrentCandidates.mp (mem_of_raced member)
      exact ⟨askable,fun _ => may⟩
    · rw [if_neg barred] at member
      refine ⟨?_,fun looks => absurd looks barred⟩
      rcases mem_append.mp member with early | late
      · exact redirectDials_askable early
      · split at late
        · split_ifs at late
          · cases late
          · exact mem_fallbackCandidates.mp (mem_of_raced late)
        · cases late

end

/-- The connect is refused, or wants no forwarding, or no peer that may be asked has a host of the exit's own. -/
def NoneOwn (S : Strings) (cfg : Config) (a : Around) (isAnon : Bool) (host : Text) (port : Int) (payload : List UInt8) : Prop :=
  cfg.refuses S isAnon host = true ∨ a.noForward = true ∨
    ∀ r, cfg.peers = some r → ∀ p ∈ Registry.offered r, cfg.isSelf p.addr = false → p.region ≠ clientCC S cfg a →
      (torrentBarred cfg port payload = true → MayCarry S cfg p) → ¬ Own cfg p

def failing (a : Around) : Around where
  noForward := a.noForward
  clientCC := a.clientCC
  clientIP := a.clientIP
  remoteIP := a.remoteIP
  shuffle _ peers := peers
  shuffles _ _ := .refl _
  late _ _ := false
  forward _ _ _ _ _ up := up
  dials _ _ _ := false
  connects := false

section
variable {S : Strings} {cfg : Config} {a : Around} {r : Registry} {host : Text} {p : Peer}

@[simp] theorem failing_noForward : (failing a).noForward = a.noForward := rfl
variable (stage : Stage)

@[simp] theorem failing_late (n : Nat) : (failing a).late stage n = false := rfl
@[simp] theorem failing_dials (n : Nat) (p : Peer) : (failing a).dials stage n p = false := rfl

theorem dialBestPeer_failing (candidates : List Peer) : dialBestPeer (failing a) stage candidates = none := by
  have none : ∀ n, firstAnswer (failing a) stage n candidates = none := by
    induction candidates with
    | nil => intro n; rfl
    | cons q rest ih =>
      intro n
      simpa [firstAnswer] using ih (n + 1)
  exact none 0

theorem redirectLoop_failing (peers : List Peer) (n : Nat) : (redirectLoop S cfg (failing a) n peers).peer = none := by
  induction peers generalizing n with
  | nil => rfl
  | cons q rest ih =>
    by_cases good : Egress.eligible S cfg (failing a) q = true
    · simpa [redirectLoop,good] using ih (n + 1)
    · simpa [redirectLoop,good] using ih (n + 1)

theorem redirect_failing : redirect S cfg (failing a) host = none := by
  unfold redirect
  grind [sameCountry,redirectLoop_failing,serviceBlock_candidates,geoPeer_candidates,whitelistPeer_candidates,dialBestPeer_failing]

theorem dialled_failing {isAnon : Bool} {port : Int} {payload : List UInt8} (accepted : cfg.refuses S isAnon host = false)
    (askable : Askable S cfg (failing a) r p) (may : torrentBarred cfg port payload = true → MayCarry S cfg p) :
    p ∈ dialled S cfg (failing a) isAnon host port payload := by
  unfold dialled
  rw [if_neg (by simp [accepted])]
  by_cases barred : torrentBarred cfg port payload = true
  · rw [if_pos barred]
    exact mem_torrentCandidates.mpr ⟨⟨r,askable⟩,may barred⟩
  · rw [if_neg barred]
    refine mem_append_right _ ?_
    have goes : route S cfg (failing a) isAnon host port payload = .primary := by
      simp [route,accepted,barred,redirect_failing]
    have fails : (dialable port && (failing a).connects) = false := Bool.and_false _
    simp only [goes,fails]
    exact mem_fallbackCandidates.mpr ⟨r,askable⟩

end

theorem self_not_dialled_iff (S : Strings) (cfg : Config) (a : Around) (isAnon : Bool) (host : Text) (port : Int)
    (payload : List UInt8) :
    (∀ a', SameRequest a a' → ∀ p ∈ dialled S cfg a' isAnon host port payload, ¬ Own cfg p) ↔
      NoneOwn S cfg a isAnon host port payload := by
  constructor
  · intro never
    by_cases refused : cfg.refuses S isAnon host = true
    · exact .inl refused
    · by_cases noForward : a.noForward = true
      · exact .inr (.inl noForward)
      · refine .inr (.inr ?_)
        intro r peers p offered other abroad may
        have askable : Askable S cfg (failing a) r p :=
          ⟨by simpa using noForward,peers,offered,eligible_iff.mpr ⟨other,abroad⟩⟩
        exact never (failing a) ⟨rfl,rfl,rfl,rfl⟩ p (dialled_failing (by simpa using refused) askable may)
  · rintro none a' same p member
    obtain ⟨accepted,⟨r,askable⟩,may⟩ := askable_of_dialled member
    rcases none with refused | noForward | none
    · simp [accepted] at refused
    · have forwards := askable.forwards
      rw [same.noForward,noForward] at forwards
      cases forwards
    · obtain ⟨other,abroad⟩ := eligible_iff.mp askable.eligible
      exact none r askable.peers p askable.offered other (same.clientCC_eq ▸ abroad) may

def onOwnList : Config :=
  { Config.bare with
    selfIPs := Config.bare.selfIPs ++ ["203.0.113.5".toList]
    peers := some ⟨"DE".toList,fetchExitList ["203.0.113.5:443".toList] ∅,∅⟩ }

/-- The exit's own dial fails, and it asks itself. -/
theorem self_dialled : ¬ ∀ (S : Strings) (cfg : Config) (a : Around) (isAnon : Bool) (host : Text) (port : Int)
    (payload : List UInt8), ∀ p ∈ dialled S cfg a isAnon host port payload, ¬ Own cfg p := by
  intro all
  refine all .ascii onOwnList (failing { Around.alone with noForward := false, clientCC := "RU".toList }) false
    "198.51.100.7".toList 443 [] ⟨"203.0.113.5:443".toList,[],none⟩ ?_ ⟨"203.0.113.5".toList,by decide +kernel,by decide⟩
  refine dialled_failing (r := ⟨"DE".toList,fetchExitList ["203.0.113.5:443".toList] ∅,∅⟩) (by decide +kernel)
    ⟨rfl,rfl,mem_singleton_self _,by decide +kernel⟩ ?_
  intro barred
  exact absurd barred (by decide)

end TunnelCat.PeerDials
