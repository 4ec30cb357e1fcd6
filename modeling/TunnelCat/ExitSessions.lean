import TunnelCat.Marshal
import TunnelCat.Sessions

/-!
The exit's check of a client session (`snc-exit/auth.go`) with the arbiter endpoint behind it
(`snc-arbiter/handler.go`, `sessions.go`). An answer counts for a minute, and for as long as it is kept when
the arbiter cannot be asked. The exit reads three fields of the reply and not its status: an error reply is
read as a session that is not denied.
-/
namespace TunnelCat.ExitSessions
open Durations Runs Sessions

def localCacheTTL : Int := minute
def localStaleTTL : Int := 3 * hour

structure CacheEntry where
  username : String
  clientID : String
  denied : Bool
  validatedAt : Int

structure Pending where
  token : String
  now : Int
  stale : Option CacheEntry

structure System where
  clock : Int
  cache : Table String CacheEntry
  pending : Table Nat Pending
  arbiter : Manager

structure Response where
  status : Nat
  body : Body

def jsonErr (msg : String) (code : Nat) : Response := ⟨code,.document (.obj [("error",.str msg)])⟩

def queryBody (token : String) : Body := .document (.obj [("session",.str token)])

def verdict : Sessions.Outcome → Response
  | .validated username clientID _ =>
    ⟨200,.document (.obj [("client_id",.str clientID),("denied",.bool false),("user",.str username)])⟩
  | .denied => ⟨200,.document (.obj [("client_id",.str ""),("denied",.bool true),("user",.str "")])⟩
  | _ => ⟨200,.document (.obj [("client_id",.str ""),("denied",.bool false),("user",.str "")])⟩

section
variable (A : Sealing String String.utf8ByteSize) (D : Draws)

variable (m : Manager) (s : System)

def apiSessionValidate (i : Sessions.Input) (node : Bool) (body : Body) :
    Manager × Option (String × Sessions.Outcome) × Response :=
  if !node then (m,none,jsonErr "unauthorized" 401)
  else
    match body.unmarshal.map (Json.field "session" Json.string "") with
    | some ⟨session, true⟩ =>
      let done := Sessions.step A D m { i with event := .validate session }
      (done.1,some (session,done.2.outcome),verdict done.2.outcome)
    | _ => (m,none,jsonErr "bad request" 400)

/-- What a query comes to: nothing, a response of someone else, or the arbiter's, which
    may know the exit or not, may get the body or something else, and may be heard or not. -/
inductive Reply
  | failed
  | other (r : Response)
  | arbiter (i : Sessions.Input) (node : Bool) (body : Option Body) (heard : Bool)

/-- A call of `validateSession` up to its query, the rest of it, or anything that the
    arbiter does besides. -/
inductive Event
  | validateSession (id : Nat) (token : String)
  | reply (id : Nat) (r : Reply)
  | arbiter (i : Sessions.Input)

structure Input where
  after : Nat
  event : Event

inductive Result
  | verdict (token username clientID : String) (denied : Bool)
  | transient
  | nothing

/-- What a step shows: what `Validate` was asked in it and answered, and the result of a
    call of `validateSession` that ends in it. -/
structure Shown where
  asked : Option (String × Sessions.Outcome)
  result : Result

def readReply (r : Response) (now : Int) : Option CacheEntry :=
  match r.body.unmarshal with
  | none => none
  | some doc =>
    let user := doc.field "user" Json.string ""
    let clientID := doc.field "client_id" Json.string ""
    let denied := doc.field "denied" Json.boolean false
    if user.ok && clientID.ok && denied.ok then some ⟨user.value,clientID.value,denied.value,now⟩ else none

def CacheEntry.result (e : CacheEntry) (token : String) : Result := .verdict token e.username e.clientID e.denied

def beginValidate (id : Nat) (token : String) : System × Shown :=
  match s.cache.lookup token with
  | some e =>
    if s.clock - e.validatedAt < localCacheTTL then (s,⟨none,e.result token⟩)
    else ({ s with pending := s.pending.insert id ⟨token,s.clock,some e⟩ },⟨none,.nothing⟩)
  | none => ({ s with pending := s.pending.insert id ⟨token,s.clock,none⟩ },⟨none,.nothing⟩)

/-- The end of `validateSession`, with what was read of the reply: a new entry, with
    which the old ones are dropped, or the entry that was there. -/
def endValidate (p : Pending) (asked : Option (String × Sessions.Outcome)) :
    Option CacheEntry → System × Shown
  | some e =>
    ({ s with cache := Table.filter (fun _ v => p.now - localStaleTTL ≤ v.validatedAt) (s.cache.insert p.token e) },
      ⟨asked,e.result p.token⟩)
  | none =>
    match p.stale with
    | some e => (s,⟨asked,e.result p.token⟩)
    | none => (s,⟨asked,.transient⟩)

def receive (p : Pending) : Reply → System × Shown
  | .failed => endValidate s p none none
  | .other r => endValidate s p none (readReply r p.now)
  | .arbiter i node body heard =>
    let done := apiSessionValidate A D s.arbiter i node (body.getD (queryBody p.token))
    endValidate { s with arbiter := done.1 } p done.2.1 (if heard then readReply done.2.2 p.now else none)

def act : Event → System × Shown
  | .validateSession id token => beginValidate s id token
  | .reply id r =>
    match s.pending.lookup id with
    | none => (s,⟨none,.nothing⟩)
    | some p => receive A D { s with pending := s.pending.erase id } p r
  | .arbiter i => ({ s with arbiter := (Sessions.step A D s.arbiter i).1 },⟨none,.nothing⟩)

def step (i : Input) : System × Shown := act A D { s with clock := s.clock + i.after } i.event

def start : System := ⟨0,∅,∅,Sessions.start⟩

/-- `Validate` has found the session. On a storage error it denies nothing and names no user, which is no acceptance. -/
def Accepts (username clientID : String) (o : Sessions.Outcome) : Prop := ∃ deviceID, o = .validated username clientID deviceID

/-- `Validate` was asked about the token and accepted it. -/
def Vouched (past : List Shown) (token username clientID : String) : Prop :=
  ∃ o ∈ past, ∃ outcome, o.asked = some (token,outcome) ∧ Accepts username clientID outcome

/-- The replies that carry a verdict: of those that are heard, the arbiter's own to the query of a node that
    it knows, if it could read the session, and those that are no JSON or deny the session. -/
def Pending.Carries (p : Pending) : Reply → Prop
  | .failed => True
  | .other r => ∀ e, readReply r p.now = some e → e.denied = true
  | .arbiter i node body heard => heard = true →
      node = true ∧ body.getD (queryBody p.token) = queryBody p.token ∧ i.fails .getSession = false

/-- A reply to a query that waits carries a verdict. -/
def Verdicts (i : Input) : Prop :=
  ∀ id r p, i.event = .reply id r → s.pending.lookup id = some p → p.Carries r

structure Backed (past : List Shown) (s : System) : Prop where
  cache : ∀ token e, s.cache.lookup token = some e → e.denied = false → Vouched past token e.username e.clientID
  pending : ∀ id p e, s.pending.lookup id = some p → p.stale = some e → e.denied = false →
    Vouched past p.token e.username e.clientID

def Good (past : List Shown) (o : Shown) : Prop :=
  ∀ token username clientID, o.result = .verdict token username clientID false →
    Vouched (past ++ [o]) token username clientID

variable {A D}
variable {past : List Shown}

theorem Vouched.later {token username clientID : String} (v : Vouched past token username clientID)
    (o : Shown) : Vouched (past ++ [o]) token username clientID := by
  obtain ⟨o',member,rest⟩ := v
  exact ⟨o',List.mem_append_left _ member,rest⟩

variable {s} {i : Sessions.Input}

theorem Backed.later (kept : Backed past s) (o : Shown) : Backed (past ++ [o]) s where
  cache token e found allowed := (kept.cache token e found allowed).later o
  pending id p e found stale allowed := (kept.pending id p e found stale allowed).later o

theorem good_entry {asked : Option (String × Sessions.Outcome)} {e : CacheEntry} {token : String}
    (vouched : e.denied = false → Vouched (past ++ [⟨asked,e.result token⟩]) token e.username e.clientID) :
    Good past ⟨asked,e.result token⟩ := by
  intro token' username clientID same
  grind [CacheEntry.result]

theorem validate_outcome (read : i.fails .getSession = false) (token : String) :
    (∃ username clientID deviceID, (validate m i token).2.outcome = .validated username clientID deviceID) ∨
      (validate m i token).2.outcome = .denied := by
  unfold validate
  rw [read,if_neg Bool.false_ne_true]
  split_ifs
  · exact .inr rfl
  cases m.sessions.lookup token with
  | none => exact .inr rfl
  | some s =>
    dsimp only
    split_ifs
    · exact .inr rfl
    · exact .inl ⟨_,_,_,rfl⟩

theorem readReply_verdict (read : i.fails .getSession = false) (token : String) (now : Int) :
    ∃ e, readReply (verdict (validate m i token).2.outcome) now = some e ∧
      (e.denied = false → Accepts e.username e.clientID (validate m i token).2.outcome) := by
  rcases validate_outcome m read token with ⟨username,clientID,deviceID,found⟩ | denied
  · let doc : Json := .obj [("client_id",.str clientID),("denied",.bool false),("user",.str username)]
    have other : Json.foldName "client_id" ≠ Json.foldName "user" ∧ Json.foldName "denied" ≠ Json.foldName "user" ∧
        Json.foldName "denied" ≠ Json.foldName "client_id" := by decide
    have user : doc.field "user" Json.string "" = ⟨username,true⟩ := by
      simp [doc,Json.field,Json.fieldStep,Json.string,other]
    have client : doc.field "client_id" Json.string "" = ⟨clientID,true⟩ := by
      simp [doc,Json.field,Json.fieldStep,Json.string,other,Ne.symm]
    have denied : doc.field "denied" Json.boolean false = ⟨false,true⟩ := by
      simp [doc,Json.field,Json.fieldStep,Json.boolean,other,Ne.symm]
    rw [found]
    refine ⟨⟨username,clientID,false,now⟩,?_,fun _ => ⟨deviceID,rfl⟩⟩
    show readReply ⟨200,.document doc⟩ now = _
    simp only [readReply,Body.unmarshal,user,client,denied,Bool.and_self,if_true]
  · rw [denied]
    exact ⟨⟨"","",true,now⟩,rfl,fun allowed => by cases allowed⟩

theorem beginValidate_backed (kept : Backed past s) (id : Nat) (token : String) :
    Backed (past ++ [(beginValidate s id token).2]) (beginValidate s id token).1 ∧
      Good past (beginValidate s id token).2 := by
  -- a query remembers the entry that was there, so it is vouched for if the entry was
  have asks : ∀ stale, s.cache.lookup token = stale → ∀ o : Shown,
      Backed (past ++ [o]) { s with pending := s.pending.insert id ⟨token,s.clock,stale⟩ } := by
    intro stale there o
    refine ⟨(kept.later o).cache,?_⟩
    intro id' p e found is allowed
    rcases Table.of_lookup_insert found with ⟨_,rfl⟩ | ⟨_,old⟩
    · exact (kept.cache token e (there.trans is) allowed).later o
    · exact (kept.later o).pending id' p e old is allowed
  cases there : s.cache.lookup token with
  | none =>
    simp only [beginValidate,there]
    exact ⟨asks none there _,nofun⟩
  | some e =>
    simp only [beginValidate,there]
    by_cases young : s.clock - e.validatedAt < localCacheTTL
    · rw [if_pos young]
      exact ⟨kept.later _,good_entry (fun allowed => (kept.cache token e there allowed).later _)⟩
    · rw [if_neg young]
      exact ⟨asks (some e) there _,nofun⟩

theorem endValidate_backed (kept : Backed past s) (p : Pending)
    (asked : Option (String × Sessions.Outcome))
    (stale : ∀ e, p.stale = some e → e.denied = false → Vouched past p.token e.username e.clientID)
    (read : Option CacheEntry)
    (vouched : ∀ e, read = some e → e.denied = false →
      ∃ outcome, asked = some (p.token,outcome) ∧ Accepts e.username e.clientID outcome) :
    Backed (past ++ [(endValidate s p asked read).2]) (endValidate s p asked read).1 ∧
      Good past (endValidate s p asked read).2 := by
  cases read with
  | some e =>
    have now : e.denied = false → Vouched (past ++ [⟨asked,e.result p.token⟩]) p.token e.username e.clientID := by
      intro allowed
      obtain ⟨outcome,is,accepts⟩ := vouched e rfl allowed
      exact ⟨_,List.mem_append_right _ (List.mem_singleton.mpr rfl),outcome,is,accepts⟩
    refine ⟨⟨?_,(kept.later _).pending⟩,good_entry now⟩
    intro token e' found allowed
    rw [endValidate,Table.lookup_filter] at found
    rcases Table.of_lookup_insert (Option.eq_some_of_filter_eq_some found) with ⟨rfl,rfl⟩ | ⟨_,old⟩
    · exact now allowed
    · exact (kept.later _).cache token e' old allowed
  | none =>
    cases there : p.stale with
    | none =>
      simp only [endValidate,there]
      exact ⟨kept.later _,nofun⟩
    | some e =>
      simp only [endValidate,there]
      exact ⟨kept.later _,good_entry (fun allowed => (stale e there allowed).later _)⟩

theorem apiSessionValidate_query (i : Sessions.Input) (token : String) :
    ∃ m', apiSessionValidate A D m i true (queryBody token) =
      (m',some (token,(validate (m.wait i.after) { i with event := .validate token } token).2.outcome),
        verdict (validate (m.wait i.after) { i with event := .validate token } token).2.outcome) := by
  have session : Json.field "session" Json.string "" (.obj [("session",.str token)]) = ⟨token,true⟩ := by
    simp [Json.field,Json.fieldStep,Json.string]
  simp only [apiSessionValidate,queryBody,Body.unmarshal,Option.map_some,session]
  exact ⟨_,rfl⟩

theorem receive_backed (kept : Backed past s) (p : Pending)
    (stale : ∀ e, p.stale = some e → e.denied = false → Vouched past p.token e.username e.clientID)
    {r : Reply} (carries : p.Carries r) :
    Backed (past ++ [(receive A D s p r).2]) (receive A D s p r).1 ∧ Good past (receive A D s p r).2 := by
  cases r with
  | failed => exact endValidate_backed kept p none stale none nofun
  | other r =>
    apply endValidate_backed kept p none stale
    intro e read allowed
    exact absurd (allowed.symm.trans (carries e read)) (by decide)
  | arbiter i node body heard =>
    have same : ∀ m, Backed past { s with arbiter := m } := fun _ => ⟨kept.cache,kept.pending⟩
    apply endValidate_backed (same _) p _ stale
    intro e read allowed
    cases heard with
    | false => cases read
    | true =>
      obtain ⟨rfl,sent,found⟩ := carries rfl
      rw [sent] at read
      rw [sent]
      obtain ⟨m',asked⟩ := apiSessionValidate_query (A := A) (D := D) s.arbiter i p.token
      rw [asked] at read ⊢
      obtain ⟨e',back,accepts⟩ := readReply_verdict (i := { i with event := .validate p.token }) (s.arbiter.wait i.after) found
        p.token p.now
      cases back.symm.trans read
      exact ⟨_,rfl,accepts allowed⟩

theorem step_backed {i : Input} (verdicts : Verdicts s i) (kept : Backed past s) :
    Backed (past ++ [(step A D s i).2]) (step A D s i).1 ∧ Good past (step A D s i).2 := by
  obtain ⟨after,event⟩ := i
  have waited : Backed past { s with clock := s.clock + after } := ⟨kept.cache,kept.pending⟩
  cases event with
  | validateSession id token => exact beginValidate_backed waited id token
  | arbiter i => exact ⟨⟨(kept.later _).cache,(kept.later _).pending⟩,nofun⟩
  | reply id r =>
    simp only [step,act]
    cases found : s.pending.lookup id with
    | none => exact ⟨waited.later _,nofun⟩
    | some p =>
      apply receive_backed _ p (fun e is allowed => kept.pending id p e found is allowed) (verdicts id r p rfl found)
      refine ⟨kept.cache,?_⟩
      grind [kept.pending]

theorem backed_start : Backed [] start where
  cache _ _ found := by cases found
  pending _ _ _ found := by cases found

/-- In every run in which each reply that is heard carries a verdict, a token is reported
    as neither denied nor transient only if `Validate` accepted it, for this user and
    client, in this query or in an earlier one. -/
theorem accepted_by_arbiter (inputs : List Input) (verdicts : Along (step A D) Verdicts start inputs)
    {before after : List Shown} {o : Shown} (shown : trace (step A D) start inputs = before ++ o :: after)
    {token username clientID : String} (accepted : o.result = .verdict token username clientID false) :
    Vouched (before ++ [o]) token username clientID := by
  have good := @output_along _ _ _ (step A D) Backed Verdicts Good (fun past s i meets kept => (step_backed meets kept).1)
    (fun past s i meets kept => (step_backed meets kept).2) [] start backed_start inputs verdicts before after o shown
  exact good token username clientID accepted

end

def firstQuery : List Input :=
  [⟨0,.arbiter sampleLogin⟩,⟨0,.validateSession 0 sampleToken⟩,
    ⟨0,.reply 0 (.arbiter (quietly 0 (.validate "")) true none true)⟩]

def cacheHit : Input := ⟨1000000000,.validateSession 1 sampleToken⟩

theorem accepted_by_arbiter_from_cache :
    let before := trace (step sampleSealing Draws.unary) start firstQuery
    let o := (step sampleSealing Draws.unary (final (step sampleSealing Draws.unary) start firstQuery) cacheHit).2
    o.result = .verdict sampleToken "user" "" false ∧ Vouched (before ++ [o]) sampleToken "user" "" := by
  intro before o
  have verdicts : Along (step sampleSealing Draws.unary) Verdicts start (firstQuery ++ [cacheHit]) := by
    refine ⟨?_,?_,?_,?_,trivial⟩
    · rintro id r p ⟨⟩
    · rintro id r p ⟨⟩
    · rintro id r p ⟨⟩ found _
      exact ⟨rfl,rfl,rfl⟩
    · rintro id r p ⟨⟩
  have shown : trace (step sampleSealing Draws.unary) start (firstQuery ++ [cacheHit]) = before ++ o :: [] :=
    trace_append _ _ _ _
  exact ⟨rfl,accepted_by_arbiter (firstQuery ++ [cacheHit]) verdicts shown rfl⟩

/-- The arbiter does not know the exit and says so; the exit takes the token for good. -/
theorem error_reply_accepted :
    ¬ ∀ (A : Sealing String String.utf8ByteSize) (D : Draws) (inputs : List Input) (before after : List Shown) (o : Shown)
        (token username clientID : String), trace (step A D) start inputs = before ++ o :: after →
      o.result = .verdict token username clientID false → Vouched (before ++ [o]) token username clientID := by
  intro holds
  have vouched := holds sampleSealing Draws.unary
    [⟨0,.validateSession 0 "token"⟩,⟨0,.reply 0 (.arbiter (quietly 0 (.validate "")) false none true)⟩]
    [⟨none,.nothing⟩] [] ⟨none,.verdict "token" "" "" false⟩ "token" "" "" rfl rfl
  obtain ⟨o,member,outcome,asked,_⟩ := vouched
  simp only [List.cons_append,List.nil_append,List.mem_cons,List.not_mem_nil,or_false] at member
  rcases member with rfl | rfl <;> cases asked

end TunnelCat.ExitSessions
