import TunnelCat.Tunnel

/-!
The bootstrap token of an exit (`snc-exit/anon_bootstrap.go`, `handler.go`), which may reach an allowlist
of destinations. The allowlist is looked at when a connection is opened, and a connection belongs to no
one. The token touches nothing else where it names only connections that were opened with it, under
rules that are still there (`bootstrap_confined`).
-/
namespace TunnelCat.Bootstrap
open Frames Egress HostPort Tunnel Runs

variable (S : Strings) (cfg : Config)

def allowlist : List HostRule := (cfg.anonBoot.map (fun ab => ab.entries)).getD []

def inAllowlist (host : Text) : Bool := isAllowed S (allowlist cfg) host (targetIP host)

def Vetted (pool : Pool) : Prop :=
  ∀ c p rules, pool.lookup c = some p → p.opened = some rules → isAllowed S rules p.conn.host (targetIP p.conn.host) = true

section
variable {S} {pool pool' : Pool}

theorem stored_vetted {t : Transport} {isAnon : Bool} {f : UploadFrame} {c : ConnID} {conn : Conn} {rules : List HostRule}
    (stored : Stored S cfg t isAnon f c conn (some rules)) : isAllowed S rules conn.host (targetIP conn.host) = true := by
  have opened := stored.opened
  grind [openedBy,allowed_of_accepted,stored.accepted]

theorem Vetted.grows {New : ConnID → Conn → Option (List HostRule) → Prop} (vetted : Vetted S pool)
    (grows : Grows New pool pool')
    (new : ∀ c conn rules, New c conn (some rules) → isAllowed S rules conn.host (targetIP conn.host) = true) :
    Vetted S pool' := by
  intro c p rules found opened
  rcases grows c p found with ⟨old,before,conn,same⟩ | stored
  · rw [conn]
    exact vetted c old rules before (same ▸ opened)
  · rw [opened] at stored
    exact new c p.conn rules stored

theorem step_vetted (vetted : Vetted S pool) (i : Input) : Vetted S (step S pool i).1 := by
  refine vetted.grows (step_grows pool i) ?_
  rintro c conn rules ⟨t,r,_,f,_,_,stored⟩
  exact stored_vetted i.cfg stored

theorem run_vetted (inputs : List Input) : Vetted S (final (step S) ∅ inputs) := by
  have start : Vetted S ∅ := by
    intro c p rules found
    simp at found
  have along : Along (step S) (fun _ _ => True) ∅ inputs := along_of_forall inputs (fun _ _ _ => trivial) ∅
  exact state_along (P := Vetted S) (fun _ i _ vetted => step_vetted vetted i) along start

end

/-- A request with the bootstrap token moves bytes only to and from what the allowlist has then. -/
def Confined (inputs : List Input) : Prop :=
  ∀ before i after t r, inputs = before ++ i :: after → i.event = .request t r → i.cfg.isAnon r.token = true →
    ∀ e ∈ (step S (final (step S) ∅ before) i).2.effects,
      ∀ conn, e.conn = some conn → inAllowlist S i.cfg conn.host = true

/-- A request with the bootstrap token addresses only a connection that was opened with
    it, under rules that the allowlist still has; and over SNCU the validator does not take
    the token for a session. -/
def KeepsToItsOwn (pool : Pool) (i : Input) : Prop :=
  ∀ t r, i.event = .request t r → i.cfg.isAnon r.token = true →
    (t = .sncu → i.call.verdict ≠ .accepted) ∧
    ∀ c p, r.addresses = some c → pool.lookup c = some p → ∃ rules, p.opened = some rules ∧ rules ⊆ allowlist i.cfg

theorem bootstrap_confined (inputs : List Input) (along : Along (step S) KeepsToItsOwn ∅ inputs) : Confined S inputs := by
  rintro before i after t r rfl happens anon e shown conn on
  obtain ⟨_,own⟩ := along_split before along
  obtain ⟨refused,opened⟩ := own t r happens anon
  have vetted := run_vetted (S := S) before
  simp only [step,happens] at shown
  rcases serve_conn shown on with ⟨c,p,addressed,found,rfl⟩ | ⟨sncu,accepted,_⟩
  · obtain ⟨rules,by_,kept⟩ := opened c p addressed found
    exact isAllowed_mono kept (vetted c p rules found by_)
  · exact absurd accepted (refused sncu)

def sampleConfig : Config :=
  { Config.bare with anonBoot := some ⟨"boot".toList,[.domain "navlink.net".toList]⟩ }

def sampleUpload (token : String) (seq : Nat) (target : String) (payload : List UInt8) : Input :=
  ⟨sampleConfig,.alone,
    .request .http ⟨token.toList,some (buildUploadPlain sampleID seq (bytes target.toList) payload)⟩⟩

def bootstrapRun : List Input := [sampleUpload "boot" 0 "navlink.net:443" [],sampleUpload "boot" 1 "" [0x16]]

theorem bootstrapRun_own : Along (step .ascii) KeepsToItsOwn ∅ bootstrapRun := by
  refine ⟨?_,?_,trivial⟩
  · rintro t r ⟨⟩ _
    refine ⟨(fun http => by cases http),?_⟩
    intro c p addressed
    cases addressed
  · rintro t r ⟨⟩ _
    refine ⟨(fun http => by cases http),?_⟩
    intro c p addressed found
    have later : Request.addresses ⟨"boot".toList,some (buildUploadPlain sampleID 1 (bytes "".toList) [0x16])⟩ =
        some sampleID := by decide
    obtain rfl : sampleID = c := Option.some.inj (later.symm.trans addressed)
    have pooled : (step .ascii ∅ (sampleUpload "boot" 0 "navlink.net:443" [])).1.lookup sampleID =
        some ⟨⟨"navlink.net".toList,443,none⟩,.fresh,false,some [.domain "navlink.net".toList]⟩ := by rfl
    obtain rfl := Option.some.inj (pooled.symm.trans found)
    exact ⟨_,rfl,by simp [allowlist,sampleUpload,sampleConfig]⟩

theorem bootstrap_confined_to_domain :
    Along (step .ascii) KeepsToItsOwn ∅ bootstrapRun ∧ Confined .ascii bootstrapRun :=
  ⟨bootstrapRun_own,bootstrap_confined .ascii bootstrapRun bootstrapRun_own⟩

def sharedRun : List Input := [sampleUpload "alice" 0 "example.org:80" [],sampleUpload "boot" 1 "" [0x47]]

theorem shared_connection_written : ¬ ∀ S inputs, Confined S inputs := by
  intro confined
  have wrote : Effect.wrote ⟨"example.org".toList,80,none⟩ [0x47] ∈
      (step .ascii (final (step .ascii) ∅ [sampleUpload "alice" 0 "example.org:80" []])
        (sampleUpload "boot" 1 "" [0x47])).2.effects := by
    decide
  have allowed := confined .ascii sharedRun _ _ [] _ _ rfl rfl (by decide) _ wrote _ rfl
  exact absurd allowed (by decide)

end TunnelCat.Bootstrap
