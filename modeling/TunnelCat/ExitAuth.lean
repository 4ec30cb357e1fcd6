import TunnelCat.Bytes
import TunnelCat.Durations
import TunnelCat.Json
import TunnelCat.Runs
import TunnelCat.Table

/-!
The login cache of an exit (`snc-exit/auth.go`). `authenticate` answers from its cache for five
minutes, asks the arbiter after that, and falls back to a cached login for a day while the arbiter
cannot be reached. A call reads the cache when it arrives and when the arbiter has answered; other
calls run in between. A rejection by the arbiter leaves the cache as it is.
-/
namespace TunnelCat.ExitAuth
open Bytes Durations Runs List

def authCacheTTL : Int := 5 * minute

def authStaleTTL : Int := 24 * hour

def looksLikeAuthSuccess (raw : Body) : Bool :=
  match raw.unmarshal with
  | none => false
  | some doc =>
    let probe := doc.field "session" Json.string ""
    probe.ok && probe.value ≠ ""

def str (raw : List (String × Json)) (key : String) : String :=
  match Json.rawEntry key raw with
  | none => ""
  | some v => (Json.string "" v).value

section
variable (sha256 : List UInt8 → List UInt8)

def userOf (raw : List (String × Json)) : String :=
  if str raw "username" = "" then str raw "user" else str raw "username"

/-- The cache key of a login: its device, else a hash of its command and user,
    and empty (never cached) without either. -/
def authDeviceKey (command : String) (body : Body) : String :=
  match body.unmarshal.bind Json.rawMembers with
  | none => ""
  | some raw =>
    if str raw "device_id" ≠ "" then "dev:" ++ str raw "device_id"
    else if userOf raw = "" then ""
    else "user:" ++ hexEncode (sha256 (command ++ ":" ++ userOf raw).toUTF8.toList)

end

/-- A cached login. Only the body of a successful login is cached. -/
structure AuthResultEntry where
  body : Body
  cachedAt : Int
  success : looksLikeAuthSuccess body = true

structure AuthClient where
  arbiterURL : String
  nodeToken : String
  authCache : Table String AuthResultEntry

def trimRightSlash (s : String) : String :=
  String.ofList ((s.toList.reverse.dropWhile (· = '/')).reverse)

def newAuthClient (arbiterURL nodeToken : String) : AuthClient :=
  ⟨trimRightSlash arbiterURL,nodeToken,∅⟩

structure Login where
  path : String
  xSession : String
  command : String
  body : Body

/-- The request an exit sends to the arbiter. The session header is only set
    when the login carries one. -/
structure Query where
  url : String
  contentType : String
  nodeToken : String
  xSession : Option String
  body : Body

variable (sha256 : List UInt8 → List UInt8) (a : AuthClient) (r : Login) (deviceKey : String) (now : Int)

def arbiterQuery : Query where
  url := a.arbiterURL ++ r.path
  contentType := "application/json"
  nodeToken := a.nodeToken
  xSession := if r.xSession = "" then none else some r.xSession
  body := r.body

structure Answer where
  body : Body
  status : Nat

inductive Outcome
  | requestError
  | unreachable
  | response (status : Nat) (raw : Body)

def Outcome.accepts : Outcome → Bool
  | .response status raw => status = 200 && looksLikeAuthSuccess raw
  | _ => false

/-- The arbiter answers and does not let the login in. -/
def Outcome.rejects : Outcome → Bool
  | .response status raw => !(status = 200 && looksLikeAuthSuccess raw)
  | _ => false

theorem rejects_refused {outcome : Outcome} (rejected : outcome.rejects = true) : outcome.accepts = false := by
  cases outcome with
  | requestError => rfl
  | unreachable => rfl
  | response status raw => grind [Outcome.rejects,Outcome.accepts]

def cacheHit : Option AuthResultEntry :=
  if deviceKey = "" then none
  else (a.authCache.lookup deviceKey).filter (fun e => now - e.cachedAt < authCacheTTL)

def internalError : Answer := ⟨.document (.obj [("error",.str "internal")]),500⟩

def arbiterUnavailable : Answer :=
  ⟨.document (.obj [("error",.str "arbiter_unavailable"),("transient",.bool true)]),503⟩

def deferredOrTransient : Answer :=
  if deviceKey = "" then arbiterUnavailable
  else
    match a.authCache.lookup deviceKey with
    | none => arbiterUnavailable
    | some e => if now - e.cachedAt < authStaleTTL then ⟨e.body,200⟩ else arbiterUnavailable

def store (e : AuthResultEntry) : AuthClient :=
  { a with
    authCache := Table.filter (fun _ v => !(v.cachedAt < e.cachedAt - authStaleTTL))
      (a.authCache.insert deviceKey e) }

def authenticateReply (arrived now : Int) : Outcome → AuthClient × Answer
  | .requestError => (a,internalError)
  | .unreachable => (a,deferredOrTransient a deviceKey now)
  | .response status raw =>
    if success : status = 200 ∧ looksLikeAuthSuccess raw = true then
      (if deviceKey = "" then a else store a deviceKey ⟨raw,arrived,success.2⟩,⟨raw,200⟩)
    else (a,⟨raw,status⟩)

def cachedAuth : Option Body :=
  if deviceKey = "" then none
  else
    match a.authCache.lookup deviceKey with
    | none => none
    | some e => if now - e.cachedAt ≥ authStaleTTL then none else some e.body

def Answer.Success (answer : Answer) : Prop :=
  answer.status = 200 ∧ looksLikeAuthSuccess answer.body = true

instance (answer : Answer) : Decidable answer.Success := inferInstanceAs (Decidable (_ ∧ _))

/-- The cache holds a login for the key that is younger than a day. -/
def Live (e : AuthResultEntry) : Prop :=
  deviceKey ≠ "" ∧ a.authCache.lookup deviceKey = some e ∧ now - e.cachedAt < authStaleTTL

theorem authCacheTTL_le : authCacheTTL ≤ authStaleTTL := by decide

variable {a} {deviceKey} {now} {e : AuthResultEntry}

theorem cacheHit_eq_some :
    cacheHit a deviceKey now = some e ↔
      deviceKey ≠ "" ∧ a.authCache.lookup deviceKey = some e ∧ now - e.cachedAt < authCacheTTL := by
  unfold cacheHit
  by_cases empty : deviceKey = ""
  · simp [empty]
  · simp [empty]

theorem cachedAuth_eq_some {body : Body} :
    cachedAuth a deviceKey now = some body ↔ ∃ e, Live a deviceKey now e ∧ e.body = body := by
  unfold cachedAuth Live
  grind

theorem deferredOrTransient_success
    (success : (deferredOrTransient a deviceKey now).Success) :
    ∃ e, Live a deviceKey now e ∧ deferredOrTransient a deviceKey now = ⟨e.body,200⟩ := by
  have refused : ¬ arbiterUnavailable.Success := by decide
  unfold deferredOrTransient at success ⊢
  by_cases empty : deviceKey = ""
  · rw [if_pos empty] at success
    exact absurd success refused
  · rw [if_neg empty] at success
    cases found : a.authCache.lookup deviceKey with
    | none =>
      rw [found] at success
      exact absurd success refused
    | some e =>
      simp only [found] at success
      by_cases young : now - e.cachedAt < authStaleTTL
      · exact ⟨e,⟨empty,found,young⟩,by simp [empty,young]⟩
      · rw [if_neg young] at success
        exact absurd success refused

theorem store_lookup {key : String} {v : AuthResultEntry}
    (found : (store a deviceKey e).authCache.lookup key = some v) :
    (key = deviceKey ∧ v = e) ∨ (key ≠ deviceKey ∧ a.authCache.lookup key = some v) := by
  grind [store,Option.filter_eq_some_iff]

section
variable (a : AuthClient) (deviceKey : String) (arrived now : Int) {outcome : Outcome}

theorem reply_accepted (accepted : outcome.accepts = true) :
    ∃ raw success, outcome = .response 200 raw ∧ authenticateReply a deviceKey arrived now outcome =
      (if deviceKey = "" then a else store a deviceKey ⟨raw,arrived,success⟩,⟨raw,200⟩) := by
  cases outcome with
  | requestError => simp [Outcome.accepts] at accepted
  | unreachable => simp [Outcome.accepts] at accepted
  | response status raw =>
    grind [Outcome.accepts,authenticateReply]

theorem reply_client (refused : outcome.accepts = false) :
    (authenticateReply a deviceKey arrived now outcome).1 = a := by
  cases outcome with
  | requestError => rfl
  | unreachable => rfl
  | response status raw =>
    grind [Outcome.accepts,authenticateReply]

theorem reply_success (refused : outcome.accepts = false)
    (success : (authenticateReply a deviceKey arrived now outcome).2.Success) :
    ∃ e, Live a deviceKey now e ∧ (authenticateReply a deviceKey arrived now outcome).2 = ⟨e.body,200⟩ := by
  cases outcome with
  | requestError =>
    have refused : ¬ internalError.Success := by decide
    exact absurd success refused
  | unreachable => exact deferredOrTransient_success success
  | response status raw =>
    have rejected : ¬ (status = 200 ∧ looksLikeAuthSuccess raw = true) := by
      simpa [Outcome.accepts] using refused
    simp only [authenticateReply,dif_neg rejected] at success
    exact absurd success rejected

end

structure Pending where
  login : Login
  arrived : Int

structure Exit where
  clock : Int
  client : AuthClient
  next : Nat
  pending : Table Nat Pending

inductive Action
  | login (r : Login)
  | reply (id : Nat) (outcome : Outcome)
  | cachedAuth (deviceKey : String)

structure Event where
  wait : Nat
  action : Action

/-- What happens at an event: a login is answered from the cache or sent to the
    arbiter, a login that waited is answered, `cachedAuth` is read, or, when no
    login waits under the number, nothing. -/
inductive Shown
  | hit (r : Login) (answer : Answer)
  | asked (id : Nat) (query : Query)
  | answered (r : Login) (outcome : Outcome) (answer : Answer)
  | cached (deviceKey : String) (found : Option Body)
  | nothing

structure Seen where
  time : Int
  shown : Shown

section
variable (sha256 : List UInt8 → List UInt8)

def Login.key (r : Login) : String := authDeviceKey sha256 r.command r.body

def act (s : Exit) (now : Int) : Action → Exit × Shown
  | .login r =>
    match cacheHit s.client (r.key sha256) now with
    | some e => ({ s with clock := now },.hit r ⟨e.body,200⟩)
    | none =>
      ({ s with clock := now, next := s.next + 1, pending := s.pending.insert s.next ⟨r,now⟩ },
        .asked s.next (arbiterQuery s.client r))
  | .reply id outcome =>
    match s.pending.lookup id with
    | none => ({ s with clock := now },.nothing)
    | some p =>
      ({ s with
          clock := now
          client := (authenticateReply s.client (p.login.key sha256) p.arrived now outcome).1
          pending := s.pending.erase id },
        .answered p.login outcome (authenticateReply s.client (p.login.key sha256) p.arrived now outcome).2)
  | .cachedAuth deviceKey => ({ s with clock := now },.cached deviceKey (cachedAuth s.client deviceKey now))

def step (s : Exit) (e : Event) : Exit × Seen :=
  ((act sha256 s (s.clock + e.wait) e.action).1,⟨s.clock + e.wait,(act sha256 s (s.clock + e.wait) e.action).2⟩)

end

def Exit.start (arbiterURL nodeToken : String) (clock : Int) : Exit :=
  ⟨clock,newAuthClient arbiterURL nodeToken,0,∅⟩

/-- How old a cached login may be to be shown. -/
def Shown.ttl : Shown → Int
  | .hit _ _ => authCacheTTL
  | _ => authStaleTTL

section
variable (sha256 : List UInt8 → List UInt8)

def Accepts (key : String) (body : Body) : Shown → Prop
  | .answered r outcome _ => r.key sha256 = key ∧ outcome = .response 200 body ∧ looksLikeAuthSuccess body = true
  | _ => False

def Grants (key : String) (body : Body) : Shown → Prop
  | .hit r answer => r.key sha256 = key ∧ answer.Success ∧ answer.body = body
  | .answered r _ answer => r.key sha256 = key ∧ answer.Success ∧ answer.body = body
  | .cached deviceKey found => deviceKey = key ∧ found = some body ∧ looksLikeAuthSuccess body = true
  | _ => False

variable {sha256} {s : Exit} {now : Int} {action : Action}

@[simp] theorem act_clock : (act sha256 s now action).1.clock = now := by
  cases action with
  | login r => simp only [act]; split <;> rfl
  | reply id outcome => simp only [act]; split <;> rfl
  | cachedAuth deviceKey => rfl

theorem act_grants {key : String} {body : Body} (granted : Grants sha256 key body (act sha256 s now action).2) :
    (∃ e, e.body = body ∧ key ≠ "" ∧ s.client.authCache.lookup key = some e ∧
      now - e.cachedAt < (act sha256 s now action).2.ttl) ∨ Accepts sha256 key body (act sha256 s now action).2 := by
  cases action with
  | login r =>
    simp only [act] at granted ⊢
    cases hit : cacheHit s.client (r.key sha256) now with
    | none => simp [hit,Grants] at granted
    | some e =>
      simp only [hit] at granted ⊢
      obtain ⟨rfl,_,rfl⟩ := granted
      obtain ⟨named,found,young⟩ := cacheHit_eq_some.mp hit
      exact .inl ⟨e,rfl,named,found,young⟩
  | reply id outcome =>
    simp only [act] at granted ⊢
    cases waiting : s.pending.lookup id with
    | none => simp [waiting,Grants] at granted
    | some p =>
      simp only [waiting] at granted ⊢
      obtain ⟨rfl,success,same⟩ := granted
      cases accepted : outcome.accepts with
      | true =>
        obtain ⟨raw,good,rfl,reply⟩ := reply_accepted s.client (p.login.key sha256) p.arrived now accepted
        rw [reply] at same
        subst same
        exact .inr ⟨rfl,rfl,good⟩
      | false =>
        obtain ⟨e,⟨named,found,young⟩,answer⟩ := reply_success _ _ _ _ accepted success
        rw [answer] at same
        exact .inl ⟨e,same,named,found,young⟩
  | cachedAuth deviceKey =>
    obtain ⟨rfl,found,_⟩ := granted
    obtain ⟨e,⟨named,entry,young⟩,same⟩ := cachedAuth_eq_some.mp found
    exact .inl ⟨e,same,named,entry,young⟩

theorem act_lookup {key : String} {v : AuthResultEntry}
    (found : (act sha256 s now action).1.client.authCache.lookup key = some v) :
    s.client.authCache.lookup key = some v ∨
      (key ≠ "" ∧ Accepts sha256 key v.body (act sha256 s now action).2 ∧
        ∃ id p, s.pending.lookup id = some p ∧ v.cachedAt = p.arrived) := by
  cases action with
  | login r =>
    simp only [act] at found
    split at found <;> exact .inl found
  | reply id outcome =>
    simp only [act] at found ⊢
    cases waiting : s.pending.lookup id with
    | none => simp only [waiting] at found; exact .inl found
    | some p =>
      simp only [waiting] at found ⊢
      cases accepted : outcome.accepts with
      | false => rw [reply_client _ _ _ _ accepted] at found; exact .inl found
      | true =>
        obtain ⟨raw,good,rfl,reply⟩ := reply_accepted s.client (p.login.key sha256) p.arrived now accepted
        rw [reply] at found
        by_cases empty : p.login.key sha256 = ""
        · rw [if_pos empty] at found; exact .inl found
        · rw [if_neg empty] at found
          rcases store_lookup found with ⟨rfl,rfl⟩ | ⟨_,old⟩
          · exact .inr ⟨empty,⟨rfl,rfl,good⟩,id,p,waiting,rfl⟩
          · exact .inl old
  | cachedAuth deviceKey => exact .inl found

theorem act_pending {id : Nat} {p : Pending} (found : (act sha256 s now action).1.pending.lookup id = some p) :
    s.pending.lookup id = some p ∨ p.arrived = now := by
  cases action with
  | login r =>
    grind [act]
  | reply other outcome =>
    grind [act]
  | cachedAuth deviceKey => exact .inl found

end

section
variable (sha256 : List UInt8 → List UInt8)

structure Traced (past : List Seen) (s : Exit) : Prop where
  entries : ∀ key e, s.client.authCache.lookup key = some e →
    key ≠ "" ∧ ∃ seen ∈ past, Accepts sha256 key e.body seen.shown ∧ e.cachedAt ≤ seen.time
  arrivals : ∀ id p, s.pending.lookup id = some p → p.arrived ≤ s.clock

theorem traced_start (arbiterURL nodeToken : String) (clock : Int) :
    Traced sha256 [] (Exit.start arbiterURL nodeToken clock) := by
  constructor
  · intro key e found
    simp [Exit.start,newAuthClient] at found
  · intro id p found
    simp [Exit.start] at found

theorem traced_kept : Kept (step sha256) (Traced sha256) := by
  intro past s event traced
  constructor
  · intro key e found
    rcases act_lookup found with old | ⟨named,accepted,id,p,waiting,arrived⟩
    · grind [traced.entries]
    · refine ⟨named,_,mem_append_right _ (mem_singleton_self _),accepted,?_⟩
      have before := traced.arrivals id p waiting
      simp only [step]
      omega
  · intro id p found
    simp only [step,act_clock]
    rcases act_pending found with old | arrived
    · have before := traced.arrivals id p old
      omega
    · exact Int.le_of_eq arrived

/-- A body handed out for a key was given by the arbiter for that key, now or,
    when it comes from the cache, within the lifetime of its entry. -/
theorem grant_traced {past : List Seen} {s : Exit} (traced : Traced sha256 past s) (event : Event) {key : String}
    {body : Body} (granted : Grants sha256 key body (step sha256 s event).2.shown) :
    Accepts sha256 key body (step sha256 s event).2.shown ∨
      (key ≠ "" ∧ ∃ seen ∈ past, Accepts sha256 key body seen.shown ∧
        (step sha256 s event).2.time - seen.time < (step sha256 s event).2.shown.ttl) := by
  grind [act_grants,traced.entries,step]

end

def Login.members : List (String × Json) := (r.body.unmarshal.bind Json.rawMembers).getD []

def Login.deviceID : String := str r.members "device_id"

def Login.user : String := userOf r.members

def Login.credentials : String × String × String :=
  (r.user,str r.members "password",str r.members "auth_sig")

section
variable (sha256 : List UInt8 → List UInt8)

variable (r : Login)

def Login.userHash : List UInt8 := sha256 (r.command ++ ":" ++ r.user).toUTF8.toList

def SameDevice (r' : Login) : Prop :=
  (r.deviceID ≠ "" ∧ r.deviceID = r'.deviceID) ∨
    (r.deviceID = "" ∧ r'.deviceID = "" ∧ r.user ≠ "" ∧ r'.user ≠ "" ∧ r.userHash sha256 = r'.userHash sha256)

theorem key_eq : r.key sha256 =
    if r.deviceID ≠ "" then "dev:" ++ r.deviceID
    else if r.user = "" then "" else "user:" ++ hexEncode (r.userHash sha256) := by
  unfold Login.key authDeviceKey Login.deviceID Login.userHash Login.user Login.members
  cases r.body.unmarshal.bind Json.rawMembers with
  | none => rfl
  | some raw => rfl

theorem key_eq_iff (r' : Login) :
    (r.key sha256 ≠ "" ∧ r.key sha256 = r'.key sha256) ↔ SameDevice sha256 r r' := by
  have dev_user : ∀ id hash : String, "dev:" ++ id ≠ "user:" ++ hash := by
    intro id hash same
    have chars := congrArg String.toList same
    simp at chars
  rw [key_eq,key_eq]
  unfold SameDevice
  by_cases device : r.deviceID = ""
  · by_cases device' : r'.deviceID = ""
    · by_cases user : r.user = ""
      · simp [device,user]
      · by_cases user' : r'.user = ""
        · simp [device',user']
        · simp only [device,device',user,user',ne_eq,not_true_eq_false,not_false_eq_true,true_and,false_and,
            false_or]
          constructor
          · rintro ⟨_,same⟩
            exact hexEncode_injective (by simpa using same)
          · intro same
            simp [same]
    grind
  · by_cases device' : r'.deviceID = ""
    · grind
    · simp [device,device']

end

def Answers (answer : Answer) : Shown → Prop
  | .hit r' answer' => r' = r ∧ answer' = answer
  | .answered r' _ answer' => r' = r ∧ answer' = answer
  | _ => False

/-- Whoever is let in has the arbiter's acceptance of a login with the same
    command and credentials. -/
def CredentialsAccepted : Prop :=
  ∀ arbiterURL nodeToken clock events before seen after r answer,
    trace (step sha256) (Exit.start arbiterURL nodeToken clock) events = before ++ seen :: after →
    Answers r answer seen.shown → answer.Success →
    ∃ accepted ∈ before ++ [seen], ∃ r' body answer', accepted.shown = .answered r' (.response 200 body) answer' ∧
      looksLikeAuthSuccess body = true ∧ r'.command = r.command ∧ r'.credentials = r.credentials

def passwordLogin (user password device : String) : Login where
  path := "/"
  xSession := ""
  command := "verifyPassword"
  body := .document (.obj [(".command",.str "verifyPassword"),("user",.str user),("password",.str password),
    ("device_id",.str device)])

def sessionBody (session : String) : Body := .document (.obj [("session",.str session)])

def otherPassword : List Event :=
  [⟨0,.login (passwordLogin "alice" "right" "d1")⟩,⟨0,.reply 0 (.response 200 (sessionBody "s1"))⟩,
    ⟨60000000000,.login (passwordLogin "alice" "wrong" "d1")⟩]

def rightPasswordSeen : List Seen :=
  [⟨0,.asked 0 (arbiterQuery (newAuthClient "https://arbiter.test" "token") (passwordLogin "alice" "right" "d1"))⟩,
    ⟨0,.answered (passwordLogin "alice" "right" "d1") (.response 200 (sessionBody "s1")) ⟨sessionBody "s1",200⟩⟩]

def wrongPasswordSeen : Seen :=
  ⟨60000000000,.hit (passwordLogin "alice" "wrong" "d1") ⟨sessionBody "s1",200⟩⟩

theorem otherPassword_trace :
    trace (step sha256) (Exit.start "https://arbiter.test" "token" 0) otherPassword =
      rightPasswordSeen ++ wrongPasswordSeen :: [] := by
  rfl

/-- The cache answers the second password with the session of the first. -/
theorem credentials_not_accepted : ¬ ∃ sha256, CredentialsAccepted sha256 := by
  rintro ⟨sha256,accepted⟩
  obtain ⟨seen,member,r,body,answer,shown,_,_,credentials⟩ :=
    accepted "https://arbiter.test" "token" 0 otherPassword rightPasswordSeen wrongPasswordSeen []
      (passwordLogin "alice" "wrong" "d1") ⟨sessionBody "s1",200⟩ (otherPassword_trace sha256) ⟨rfl,rfl⟩ (by decide)
  simp only [rightPasswordSeen,wrongPasswordSeen,cons_append,nil_append,mem_cons,not_mem_nil,
    or_false] at member
  rcases member with rfl | rfl | rfl
  · simp at shown
  · simp only [Shown.answered.injEq] at shown
    rw [← shown.1] at credentials
    exact absurd credentials (by decide)
  · simp at shown

section
variable (sha256 : List UInt8 → List UInt8)

theorem answers_grants {r : Login} {answer : Answer} {shown : Shown} (answers : Answers r answer shown)
    (success : answer.Success) : Grants sha256 (r.key sha256) answer.body shown := by
  cases shown with
  | hit r' answer' => obtain ⟨rfl,rfl⟩ := answers; exact ⟨rfl,success,rfl⟩
  | answered r' outcome answer' => obtain ⟨rfl,rfl⟩ := answers; exact ⟨rfl,success,rfl⟩
  | asked id query => exact answers.elim
  | cached deviceKey found => exact answers.elim
  | nothing => exact answers.elim

theorem accepts_shown {key : String} {body : Body} {shown : Shown} (accepts : Accepts sha256 key body shown) :
    ∃ r answer, shown = .answered r (.response 200 body) answer ∧ r.key sha256 = key := by
  cases shown with
  | answered r outcome answer => obtain ⟨key,rfl,_⟩ := accepts; exact ⟨r,answer,rfl,key⟩
  | hit r' answer' => exact accepts.elim
  | asked id query => exact accepts.elim
  | cached deviceKey found => exact accepts.elim
  | nothing => exact accepts.elim

/-- In every history, a login that is let in gets a body that the arbiter gave
    for this login, or for one of the same device that it had accepted before:
    less than five minutes before a cache hit, less than a day before an answer
    that replaces an unreachable arbiter's. -/
theorem login_let_in_by_arbiter (arbiterURL nodeToken : String) (clock : Int) (events : List Event)
    (before after : List Seen) (seen : Seen) (r : Login) (answer : Answer)
    (shown : trace (step sha256) (Exit.start arbiterURL nodeToken clock) events = before ++ seen :: after)
    (answers : Answers r answer seen.shown) (success : answer.Success) :
    ∃ accepted ∈ before ++ [seen], ∃ r' answer', accepted.shown = .answered r' (.response 200 answer.body) answer' ∧
      ((accepted = seen ∧ r' = r) ∨
        (accepted ∈ before ∧ SameDevice sha256 r' r ∧ seen.time - accepted.time < seen.shown.ttl)) := by
  have granted := answers_grants sha256 answers success
  have source := output_run (fun past o => ∀ key body, Grants sha256 key body o.shown →
      Accepts sha256 key body o.shown ∨ (key ≠ "" ∧ ∃ seen ∈ past, Accepts sha256 key body seen.shown ∧
        o.time - seen.time < o.shown.ttl))
    (traced_kept sha256) (fun past s event traced key body => grant_traced sha256 traced event) []
    (traced_start sha256 arbiterURL nodeToken clock) shown _ _ granted
  rcases source with now | ⟨named,earlier,member,given,young⟩
  · obtain ⟨r',answer',same,_⟩ := accepts_shown sha256 now
    refine ⟨seen,by simp,r',answer',same,.inl ⟨rfl,?_⟩⟩
    rw [same] at answers
    exact answers.1
  · obtain ⟨r',answer',same,key⟩ := accepts_shown sha256 given
    refine ⟨earlier,mem_append_left _ member,r',answer',same,.inr ⟨member,?_,young⟩⟩
    exact (key_eq_iff sha256 r' r).mp ⟨key ▸ named,key⟩

end

/-- The cached answer to the second password is the arbiter's to the first. -/
theorem wrong_password_let_in_by_arbiter :
    ∃ accepted ∈ rightPasswordSeen ++ [wrongPasswordSeen], ∃ r' answer',
      accepted.shown = .answered r' (.response 200 (sessionBody "s1")) answer' ∧
      ((accepted = wrongPasswordSeen ∧ r' = passwordLogin "alice" "wrong" "d1") ∨
        (accepted ∈ rightPasswordSeen ∧ SameDevice (fun _ => []) r' (passwordLogin "alice" "wrong" "d1") ∧
          wrongPasswordSeen.time - accepted.time < wrongPasswordSeen.shown.ttl)) :=
  login_let_in_by_arbiter (fun _ => []) "https://arbiter.test" "token" 0 otherPassword rightPasswordSeen []
    wrongPasswordSeen (passwordLogin "alice" "wrong" "d1") ⟨sessionBody "s1",200⟩ (otherPassword_trace (fun _ => []))
    ⟨rfl,rfl⟩ (by decide)

section
variable (sha256 : List UInt8 → List UInt8)

def NoneAccepted (key : String) (past : List Seen) : Prop :=
  ∀ seen ∈ past, ∀ body, ¬ Accepts sha256 key body seen.shown

variable {key : String}

theorem noneAccepted_append {past : List Seen} {seen : Seen} :
    NoneAccepted sha256 key (past ++ [seen]) ↔
      NoneAccepted sha256 key past ∧ ∀ body, ¬ Accepts sha256 key body seen.shown := by
  simp [NoneAccepted,or_imp,forall_and]

/-- From `s` on, no body that lets its holder in is handed out for the key
    until the arbiter accepts a login for it. -/
def Withheld (s : Exit) (key : String) : Prop :=
  ∀ events before seen after, trace (step sha256) s events = before ++ seen :: after →
    NoneAccepted sha256 key (before ++ [seen]) → ∀ body, ¬ Grants sha256 key body seen.shown

theorem ttl_le (shown : Shown) : shown.ttl ≤ authStaleTTL := by
  cases shown <;> simp [Shown.ttl,authCacheTTL_le]

def Cold (s : Exit) (key : String) : Prop := ∀ e, ¬ Live s.client key s.clock e

theorem cold_kept (key : String) : Kept (step sha256) fun past s => NoneAccepted sha256 key past → Cold s key := by
  intro past s event cold none e ⟨named,found,young⟩
  obtain ⟨before,now⟩ := (noneAccepted_append sha256).mp none
  rcases act_lookup found with old | ⟨_,accepted,_⟩
  · refine cold before e ⟨named,old,?_⟩
    simp only [step,act_clock] at young
    omega
  · exact now _ accepted

theorem cold_withheld {s : Exit} (cold : Cold s key) : Withheld sha256 s key := by
  intro events before seen after shown none
  refine output_run (fun past o => NoneAccepted sha256 key (past ++ [o]) → ∀ body, ¬ Grants sha256 key body o.shown)
    (cold_kept sha256 key) ?_ [] (fun _ => cold) shown none
  intro past s event cold none body granted
  obtain ⟨before,now⟩ := (noneAccepted_append sha256).mp none
  rcases act_grants granted with ⟨e,_,named,found,young⟩ | accepted
  · have fresh := ttl_le (act sha256 s (s.clock + event.wait) event.action).2
    -- the event comes later than the state, so an entry that it may serve is still live in the state
    refine cold before e ⟨named,found,?_⟩
    omega
  · exact now body accepted

theorem withheld_iff_cold {s : Exit} : Withheld sha256 s key ↔ Cold s key := by
  constructor
  · rintro withheld e ⟨named,found,young⟩
    have served := cachedAuth_eq_some.mpr ⟨e,⟨named,found,young⟩,rfl⟩
    refine withheld [⟨0,.cachedAuth key⟩] [] ⟨s.clock,.cached key (some e.body)⟩ [] ?_ ?_ e.body ⟨rfl,rfl,e.success⟩
    · simp [step,act,served]
    · simp [NoneAccepted,Accepts]
  · exact cold_withheld sha256

/-- In every history, after the arbiter has rejected a login, no body that lets
    its holder in is handed out for the login's key until the arbiter accepts a
    later login, exactly when the cache held no login of that key younger than a
    day at the rejection. -/
theorem rejected_withheld_iff (arbiterURL nodeToken : String) (clock : Int) (events : List Event) (wait id : Nat)
    (p : Pending) (outcome : Outcome)
    (waiting : (final (step sha256) (Exit.start arbiterURL nodeToken clock) events).pending.lookup id = some p)
    (rejected : outcome.rejects = true) :
    Withheld sha256 (final (step sha256) (Exit.start arbiterURL nodeToken clock) (events ++ [⟨wait,.reply id outcome⟩]))
        (p.login.key sha256) ↔
      ∀ e, ¬ Live (final (step sha256) (Exit.start arbiterURL nodeToken clock) events).client (p.login.key sha256)
        ((final (step sha256) (Exit.start arbiterURL nodeToken clock) events).clock + wait) e := by
  have refused : outcome.accepts = false := rejects_refused rejected
  rw [withheld_iff_cold,final_append]
  simp only [final_cons,final_nil,Cold,step,act,waiting,reply_client _ _ _ _ refused]

end

def accountDisabled : Outcome := .response 403 (.document (.obj [("error",.str "account disabled")]))

/-- An exit that has cached no login withholds one that is rejected. -/
theorem first_rejection_withheld :
    Withheld (fun _ => []) (final (step (fun _ => [])) (Exit.start "https://arbiter.test" "token" 0)
        ([⟨0,.login (passwordLogin "alice" "wrong" "d1")⟩] ++ [⟨1000,.reply 0 accountDisabled⟩]))
      ((passwordLogin "alice" "wrong" "d1").key (fun _ => [])) :=
  (rejected_withheld_iff (fun _ => []) "https://arbiter.test" "token" 0 [⟨0,.login (passwordLogin "alice" "wrong" "d1")⟩]
    1000 0 ⟨passwordLogin "alice" "wrong" "d1",0⟩ accountDisabled rfl (by decide)).mpr
    (fun e live => by have found : none = some e := live.2.1; simp at found)

/-- After every rejection the key is withheld until a later acceptance. -/
def RejectionsRemembered : Prop :=
  ∀ arbiterURL nodeToken clock events wait id p outcome,
    (final (step sha256) (Exit.start arbiterURL nodeToken clock) events).pending.lookup id = some p →
    outcome.rejects = true →
    Withheld sha256
      (final (step sha256) (Exit.start arbiterURL nodeToken clock) (events ++ [⟨wait,.reply id outcome⟩]))
      (p.login.key sha256)

def askedAgain : List Event :=
  [⟨0,.login (passwordLogin "alice" "right" "d1")⟩,⟨0,.reply 0 (.response 200 (sessionBody "s1"))⟩,
    ⟨360000000000,.login (passwordLogin "alice" "right" "d1")⟩]

/-- The arbiter disables the account, then cannot be reached: the login is
    answered with the session it had before. -/
theorem rejections_not_remembered : ¬ ∃ sha256, RejectionsRemembered sha256 := by
  rintro ⟨sha256,remembered⟩
  have withheld := remembered "https://arbiter.test" "token" 0 askedAgain 1000000000 1
    ⟨passwordLogin "alice" "right" "d1",360000000000⟩ accountDisabled rfl (by decide)
  refine withheld [⟨0,.login (passwordLogin "alice" "right" "d1")⟩,⟨0,.reply 2 .unreachable⟩]
    [⟨361000000000,.asked 2 (arbiterQuery (newAuthClient "https://arbiter.test" "token")
      (passwordLogin "alice" "right" "d1"))⟩]
    ⟨361000000000,.answered (passwordLogin "alice" "right" "d1") .unreachable ⟨sessionBody "s1",200⟩⟩ [] rfl ?_
    (sessionBody "s1") ⟨rfl,by decide,rfl⟩
  simp [NoneAccepted,Accepts]

end TunnelCat.ExitAuth
