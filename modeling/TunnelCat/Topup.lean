import TunnelCat.Listings

/-!
The client's side of the top-up (`snc/core/manifest_topup.go`), with the arbiter's (`apiManifestTopup`). A
client that has too few live controls asks for one after the other. It sends along what it must not be given:
what it was given in the last five minutes, and what it knows.
-/
namespace TunnelCat.Topup
open Nodes Manifest KeyString Listings List

def topupTarget : Nat := 12

def topupTriedWindow : Int := 5 * 60 * 1000000000

structure TopupTriedEntry where
  addr : String
  at_ : Int

structure TopupClient where
  keyAuth : KeyData
  tried : List TopupTriedEntry

def prune (now : Int) (tried : List TopupTriedEntry) : List TopupTriedEntry :=
  tried.filter (fun e => now - e.at_ < topupTriedWindow)

def addUnseen (out : List String) (a : String) : List String := if out.contains a then out else out ++ [a]

def excludeSet (tried : List TopupTriedEntry) (known : List String) : List String :=
  (tried.map TopupTriedEntry.addr ++ known).foldl addUnseen []

theorem mem_addUnseen {out : List String} {a b : String} : b ∈ addUnseen out a ↔ b ∈ out ∨ b = a := by
  grind [addUnseen]

theorem mem_foldl_addUnseen {b : String} (addrs : List String) : ∀ out, b ∈ addrs.foldl addUnseen out ↔ b ∈ out ∨ b ∈ addrs := by
  induction addrs with
  | nil => simp
  | cons a rest ih =>
    intro out
    rw [foldl_cons,ih,mem_addUnseen,mem_cons,or_assoc]

theorem mem_excludeSet {tried : List TopupTriedEntry} {known : List String} {a : String} :
    a ∈ excludeSet tried known ↔ a ∈ tried.map TopupTriedEntry.addr ∨ a ∈ known := by
  rw [excludeSet,mem_foldl_addUnseen]
  simp

def requestFields : List (Field TopupRequest) :=
  [.always "username" Codec.string (fun r => r.key.username),
   .always "servers" (Codec.slice Codec.string) (fun r => r.key.servers),
   .always "control_nodes" (Codec.slice Codec.string) (fun r => r.key.controlNodes),
   .always "arbiter_pubkey" Codec.string (fun r => r.key.arbiterPubkey),
   .always "node_id" Codec.string (fun r => r.key.nodeId),
   .always "api_key" Codec.string (fun r => r.key.apiKey),
   .always "client_id" Codec.string (fun r => r.key.clientId),
   .always "key_id" Codec.string (fun r => r.key.keyId),
   .always "auth_sig" Codec.string (fun r => r.key.authSig),
   .always "exclude" (Codec.slice Codec.string) TopupRequest.exclude]

theorem requestFields_distinct : Json.Distinct requestFields := by decide

theorem unmarshal_request (r : TopupRequest) : TopupRequest.unmarshal (Json.marshal requestFields r) =
    some ⟨{ r.key with password := "", sig := "", isAdmin := false },r.exclude⟩ := by
  have username := Json.always_read requestFields_distinct 0 rfl r
  have servers := Json.always_read requestFields_distinct 1 rfl r
  have controlNodes := Json.always_read requestFields_distinct 2 rfl r
  have arbiterPubkey := Json.always_read requestFields_distinct 3 rfl r
  have nodeId := Json.always_read requestFields_distinct 4 rfl r
  have apiKey := Json.always_read requestFields_distinct 5 rfl r
  have clientId := Json.always_read requestFields_distinct 6 rfl r
  have keyId := Json.always_read requestFields_distinct 7 rfl r
  have authSig := Json.always_read requestFields_distinct 8 rfl r
  have exclude := Json.always_read requestFields_distinct 9 rfl r
  simp only [Codec.string,Codec.slice] at *
  simp only [TopupRequest.unmarshal,username,servers,controlNodes,arbiterPubkey,nodeId,apiKey,clientId,keyId,authSig,exclude,
    Bool.and_self,if_true]

def readReply (doc : Json) : Option (NodeEntry × Bool) :=
  let entry := NodeEntry.decode NodeEntry.zero doc
  let exhausted := doc.field "exhausted" Json.boolean false
  if entry.ok && exhausted.ok then some (entry.value,exhausted.value) else none

theorem readReply_entry (e : NodeEntry) : readReply (Json.marshal NodeEntry.fields e) = some (e,false) := by
  have unwritten : ∀ f ∈ NodeEntry.fields, Json.foldName f.name ≠ Json.foldName "exhausted" := by decide
  grind [Json.field_absent,readReply,NodeEntry.decode_marshal]

theorem readReply_exhausted : readReply (.obj [("exhausted",.bool true)]) = some (NodeEntry.zero,true) := by decide +kernel

inductive RequestError
  | transport
  | rateLimited
  | status (code : Nat)
  | decode

section
variable {S : Signatures Json}

/-- What a turn of the loop finds: whether the context is canceled, how many controls are live and
    which are known, whether the request gets through and within the 8 KiB, the verdict of the rate
    limiter, the arbiter, whether its answer is read, the time then, and the probe. -/
structure Turn (S : Signatures Json) where
  canceled : Bool
  live : Nat
  known : List String
  connects : Bool
  fits : Bool
  allowed : Bool
  handler : Handler S
  answerRead : Bool
  now : Int
  probe : Bool

def requestOne (t : Turn S) (keyAuth : KeyData) (exclude : List String) : Except RequestError (NodeEntry × Bool) :=
  if !t.connects then .error .transport
  else
    match apiManifestTopup t.handler t.allowed (if t.fits then some (Json.marshal requestFields ⟨keyAuth,exclude⟩) else none) with
    | .error refusal => if refusal.status = 429 then .error .rateLimited else .error (.status refusal.status)
    | .ok served =>
      match if t.answerRead then readReply served.body else none with
      | none => .error .decode
      | some out => .ok out

/-- The addresses that an arbiter may serve to a user are those of the pool. -/
def Serves (pool : List Node) (h : Handler S) (username : String) : Prop :=
  ∀ controls, liveNodes h.env h.db .control = some controls →
    ∀ n ∈ topupPool h username controls, n.addr ∈ pool.map Node.addr

theorem apiManifestTopup_answer {h : Handler S} {allowed : Bool} {doc : Json} {req : TopupRequest} {s : Served}
    (read : TopupRequest.unmarshal doc = some req) (answered : apiManifestTopup h allowed (some doc) = .ok s) :
    s.body = .obj [("exhausted",.bool true)] ∨
      ∃ controls picked, liveNodes h.env h.db .control = some controls ∧ picked ∈ topupPool h req.key.username controls ∧
        picked.addr ∉ req.exclude ∧ s.body = Json.marshal NodeEntry.fields (entryOf picked) := by
  simp only [apiManifestTopup,Option.bind_some,read] at answered
  split_ifs at answered
  split at answered
  · cases answered
  · next controls found =>
    split at answered
    · cases answered
      exact .inl rfl
    · next picked drawn =>
      cases answered
      obtain ⟨inside,free⟩ := mem_filter.mp (mem_of_getElem? drawn)
      exact .inr ⟨controls,picked,found,inside,by simpa using free,rfl⟩

theorem apiManifestTopup_unread (h : Handler S) (allowed : Bool) (s : Served) : apiManifestTopup h allowed none ≠ .ok s := by
  grind [apiManifestTopup]

theorem requestOne_given {t : Turn S} {keyAuth : KeyData} {exclude : List String} {pool : List Node} {entry : NodeEntry}
    (serves : Serves pool t.handler keyAuth.username) (given : requestOne t keyAuth exclude = .ok (entry,false)) :
    entry.addr ∈ pool.map Node.addr ∧ entry.addr ∉ exclude := by
  unfold requestOne at given
  split at given
  · cases given
  · split at given
    · split at given <;> cases given
    · next served answered =>
      split at given
      · cases given
      · next out taken =>
        cases given
        have reads : readReply served.body = some (entry,false) := by
          split at taken
          · exact taken
          · cases taken
        split at answered
        · rcases apiManifestTopup_answer (unmarshal_request ⟨keyAuth,exclude⟩) answered with
            exhausted | ⟨controls,picked,found,inside,free,body⟩
          · rw [exhausted,readReply_exhausted] at reads
            cases reads
          · rw [body,readReply_entry] at reads
            cases reads
            exact ⟨serves controls found picked inside,free⟩
        · exact absurd answered (apiManifestTopup_unread _ _ _)

/-- A round under way. The code does not keep how many requests it made, what it was given and what
    it handed to `addFn`. -/
structure Round where
  tried : List TopupTriedEntry
  requests : Nat
  received : List String
  added : List String

def turn (keyAuth : KeyData) (t : Turn S) (r : Round) : Round × Bool :=
  if t.canceled then (r,false)
  else if topupTarget ≤ t.live then (r,false)
  else
    match requestOne t keyAuth (excludeSet r.tried t.known) with
    | .error _ => ({ r with requests := r.requests + 1 },false)
    | .ok (_, true) => ({ r with requests := r.requests + 1 },false)
    | .ok (entry, false) =>
      ({ tried := r.tried ++ [⟨entry.addr,t.now⟩]
         requests := r.requests + 1
         received := r.received ++ [entry.addr]
         added := if t.probe then r.added ++ [entry.addr] else r.added },true)

def loop (keyAuth : KeyData) (turns : Nat → Turn S) : Nat → Nat → Round → Option Round
  | 0, _, _ => none
  | fuel + 1, k, r =>
    match turn keyAuth (turns k) r with
    | (r, false) => some r
    | (r, true) => loop keyAuth turns fuel (k + 1) r

def run (client : TopupClient) (now : Int) (turns : Nat → Turn S) (fuel : Nat) : Option Round :=
  loop client.keyAuth turns fuel 0 ⟨prune now client.tried,0,[],[]⟩

structure Drawn (pool : List Node) (r : Round) : Prop where
  requests : r.requests = r.received.length
  apart : r.received.Nodup
  inside : r.received ⊆ pool.map Node.addr
  tried : r.received ⊆ r.tried.map TopupTriedEntry.addr

section
variable {keyAuth : KeyData} {pool : List Node} {t : Turn S} {r : Round}

theorem Drawn.length_le (drawn : Drawn pool r) : r.received.length ≤ pool.length := by
  have le := (drawn.apart.subperm drawn.inside).length_le
  rwa [length_map] at le

theorem turn_draws (serves : Serves pool t.handler keyAuth.username) (drawn : Drawn pool r) {r' : Round}
    (goes : turn keyAuth t r = (r',true)) : Drawn pool r' ∧ r'.received.length = r.received.length + 1 := by
  unfold turn at goes
  split at goes
  · cases goes
  · split at goes
    · cases goes
    · split at goes
      · cases goes
      · cases goes
      · next entry given =>
        obtain ⟨inside,free⟩ := requestOne_given serves given
        cases goes
        have fresh : entry.addr ∉ r.received := fun old => free (mem_excludeSet.mpr (.inl (drawn.tried old)))
        refine ⟨⟨?_,?_,?_,?_⟩,by simp⟩
        · simp [drawn.requests]
        · exact drawn.apart.append (nodup_singleton _) (disjoint_singleton.mpr fresh)
        · exact append_subset.mpr ⟨drawn.inside,by simpa using inside⟩
        · grind [drawn.tried]

theorem turn_ends {r' : Round} (ends : turn keyAuth t r = (r',false)) :
    r'.received = r.received ∧ r'.requests ≤ r.requests + 1 := by
  unfold turn at ends
  grind

theorem loop_more {turns : Nat → Turn S} {fuel : Nat} :
    ∀ {k : Nat} {r r' : Round}, loop keyAuth turns fuel k r = some r' → ∀ more, loop keyAuth turns (fuel + more) k r = some r' := by
  induction fuel with
  | zero => intro k r r' ended; cases ended
  | succ fuel ih =>
    grind [loop]

theorem loop_ends {turns : Nat → Turn S} (serves : ∀ k, Serves pool (turns k).handler keyAuth.username) (fuel : Nat) :
    ∀ (k : Nat) {r : Round}, Drawn pool r → pool.length < r.received.length + fuel →
      ∃ r', loop keyAuth turns fuel k r = some r' ∧ r'.received.Nodup ∧ r'.requests ≤ pool.length + 1 := by
  induction fuel with
  | zero =>
    intro k r drawn enough
    have le := drawn.length_le
    omega
  | succ fuel ih =>
    intro k r drawn enough
    simp only [loop]
    cases turned : turn keyAuth (turns k) r with
    | mk r' goes =>
      cases goes with
      | false =>
        grind [turn_ends,drawn.length_le,drawn.requests,drawn.apart]
      | true =>
        obtain ⟨next,longer⟩ := turn_draws (serves k) drawn turned
        exact ih (k + 1) next (by omega)

end

/-- A round against a fixed pool ends, after at most one request more than the pool has nodes, and
    is given no address twice. -/
theorem topup_terminates (client : TopupClient) (now : Int) (pool : List Node) (turns : Nat → Turn S)
    (serves : ∀ k, Serves pool (turns k).handler client.keyAuth.username) :
    ∃ r, (∀ fuel, pool.length < fuel → run client now turns fuel = some r) ∧ r.received.Nodup ∧ r.requests ≤ pool.length + 1 := by
  have begins : Drawn pool ⟨prune now client.tried,0,[],[]⟩ := ⟨rfl,nodup_nil,nil_subset _,nil_subset _⟩
  obtain ⟨r,ended,apart,few⟩ := loop_ends serves (pool.length + 1) 0 begins (by simp)
  refine ⟨r,?_,apart,few⟩
  intro fuel enough
  obtain ⟨more,rfl⟩ := Nat.exists_eq_add_of_le (Nat.succ_le_of_lt enough)
  exact loop_more ended more

end

noncomputable def pairHandler : Handler (Signatures.symbolic Json) :=
  { sampleHandler with
    db := { sampleHandler.db with
      nodes := sampleHandler.db.nodes ++
        sampleHandler.db.nodes.map (fun n => { n with id := 2, addr := "198.51.100.8:443", token := some "u" }) } }

noncomputable def sampleClient : TopupClient := ⟨signPayload _ (sampleKey _ sampleHandler.signer) sampleHandler.signer,[]⟩

noncomputable def sampleTurn : Turn (Signatures.symbolic Json) := ⟨false,0,[],true,true,true,pairHandler,true,0,true⟩

theorem pair_offered {controls : List Node} (found : liveNodes pairHandler.env pairHandler.db .control = some controls) :
    topupPool pairHandler "alice" controls ≠ [] := by
  have pool : topupPool pairHandler "alice" controls = controls := by
    simp [topupPool,getOrCreateUser,allClubs,pairHandler,sampleHandler,Env.quiet,Env.run,DB.withUser]
  rw [pool]
  have live : ∀ n ∈ sampleHandler.db.nodes, pairHandler.db.live 1000 .control heartbeatTTL n = true := by decide
  exact ne_nil_of_mem ((mem_liveNodes found _).mpr ⟨mem_append_left _ (mem_singleton_self _),live _ (mem_singleton_self _)⟩)

theorem pair_given : ∃ e, requestOne sampleTurn sampleClient.keyAuth [] = .ok (e,false) := by
  have signed : authSigOK pairHandler { sampleClient.keyAuth with password := "", sig := "", isAdmin := false } = true :=
    authSigOK_signPayload pairHandler (sampleKey _ sampleHandler.signer) ""
  have named : sampleClient.keyAuth.authSig ≠ "" := (Signatures.symbolic Json).sigText_ne _
  obtain ⟨controls,found⟩ : ∃ controls, liveNodes pairHandler.env pairHandler.db .control = some controls := ⟨_,rfl⟩
  have offered := pair_offered found
  obtain ⟨picked,drawn⟩ : ∃ picked, (topupPool pairHandler "alice" controls)[0]? = some picked :=
    ⟨_,getElem?_eq_getElem (length_pos_iff.mpr offered)⟩
  refine ⟨entryOf picked,?_⟩
  have served : apiManifestTopup pairHandler true (some (Json.marshal requestFields ⟨sampleClient.keyAuth,[]⟩)) =
      .ok ⟨Json.marshal NodeEntry.fields (entryOf picked),[picked]⟩ := by
    have user : sampleClient.keyAuth.username = "alice" := rfl
    have first : pairHandler.env.intn (topupPool pairHandler "alice" controls).length = 0 := rfl
    simp [apiManifestTopup,unmarshal_request,named,found,user,first,drawn]
    exact signed
  simp [requestOne,sampleTurn,served,readReply_entry]

/-- A client with a key that the arbiter has signed, and two controls: the first turn gets an
    address. -/
theorem topup_terminates_sample :
    (∃ addr, (turn sampleClient.keyAuth sampleTurn ⟨[],0,[],[]⟩).1.received = [addr]) ∧
    ∃ r, (∀ fuel, 2 < fuel → run sampleClient 0 (fun _ => sampleTurn) fuel = some r) ∧ r.received.Nodup ∧ r.requests ≤ 3 := by
  obtain ⟨e,given⟩ := pair_given
  have gets : (turn sampleClient.keyAuth sampleTurn ⟨[],0,[],[]⟩).1.received = [e.addr] := by
    unfold turn
    rw [if_neg (by decide),if_neg (by decide),show excludeSet [] sampleTurn.known = [] from rfl,given]
    rfl
  refine ⟨⟨e.addr,gets⟩,topup_terminates sampleClient 0 pairHandler.db.nodes (fun _ => sampleTurn) ?_⟩
  intro _ controls found n member
  rcases mem_topupPool pairHandler member with listed | ⟨c,access,-⟩
  · exact mem_map_of_mem ((mem_liveNodes found n).mp listed).1
  · simp [HasAccess,DB.isMember,pairHandler,sampleHandler,latest] at access

end TunnelCat.Topup
