import TunnelCat.Durations
import TunnelCat.Ideal
import TunnelCat.Runs
import TunnelCat.Table

/-!
The arbiter's client sessions (`snc-arbiter/sessions.go`, `db.go`): a login gets a token, `Validate`
accepts it while its row is there, and a refresher asks Camerlengo again about rows that are a
quarter of an hour old and deletes those of three hours. Its passes work on the rows as they were
listed; other calls come between their steps.

`validated_at` is written also where Camerlengo was not asked. The `stamp` of a row says what wrote
it last, and when Camerlengo said yes.
-/
namespace TunnelCat.Sessions
open Durations Runs List Table

/-! ### Times, in nanoseconds -/

def sessionValidateTTL : Int := 15 * minute
def sessionRetryCooldown : Int := minute
def sessionStaleTTL : Int := 3 * hour

def unix (now : Int) : Int := now / second

/-! ### Rows -/

/-- What wrote `validated_at` last. -/
inductive Stamp
  | credentials (time : Int)
  | camSession (time : Int)
  | touched
  | fallback
  | key

structure Session where
  token : String
  username : String
  clientID : String
  deviceID : String
  deviceName : String
  encPassword : List UInt8
  camSession : String
  validatedAt : Int
  lastAttempt : Int
  stamp : Stamp

structure User where
  clientID : String
  enabled : Bool

structure Key where
  enabled : Bool
  unlimitedDevices : Bool
  deviceID : Option String
  deviceName : String
  lastSeen : Int

/-- A pass of the refresher: when it began, the rows it has listed and not come to,
    the row it has asked Camerlengo about, and whether every deletion so far worked. -/
structure Pass where
  start : Int
  rest : List Session
  waiting : Option Session
  clean : Bool

/-- The tables, the refresher, and the start of the last pass that was gone through
    with every deletion done (at first, of the history). -/
structure Manager where
  clock : Int
  sessions : Table String Session
  users : Table String User
  keys : Table String Key
  drawn : Nat
  pass : Option Pass
  lastPass : Int

inductive Call
  | recentSession
  | isUserEnabled
  | getKey
  | upsertKeyDevice
  | touchKeyLastSeen
  | getOrCreateUser
  | encrypt
  | genToken
  | createSession
  | getSession
  | touchSession
  | listSessions
  | deleteSession
  | touchLastAttempt
  | updateCamSession
deriving DecidableEq

structure LoginOpts where
  keyID : String
  deviceID : String
  deviceName : String

/-- Camerlengo's answer about a session: an error, or the user, empty when it has
    expired; then the answer to the login with the stored password. -/
inductive Reply
  | error
  | user (name : String) (relogin : Option String)

/-- A call or a step of the refresher. Camerlengo's answer to a login is a session
    or, on a rejection or an error, `none`. -/
inductive Event
  | login (username password : String) (opts : Option LoginOpts) (reply : Option String)
  | loginWithKey (username : String) (opts : Option LoginOpts)
  | loginAsProxy (username password : String) (reply : Option String)
  | validate (token : String)
  | adminPage (token : String)
  | passStart
  | examine
  | answer (reply : Reply)
  | restart
  | setUser (username : String) (user : User)
  | setKey (keyID : String) (key : Option Key)

/-- An event with what surrounds it: the time since the last one, the calls that
    fail, the nonce, which of several latest rows is the recent one, and the client
    id that a new user gets. -/
structure Input where
  after : Nat
  fails : Call → Bool
  nonce : Nonce 12
  ties : Nat
  clientID : String
  event : Event

inductive LoginError
  | camerlengo
  | accountDisabled
  | keyDisabled
  | getUser
  | encrypt
  | genToken
  | createSession
deriving DecidableEq

inductive Acceptance
  | credentials (username password : String)
  | camSession (session : String)

inductive Outcome
  | token (token : String)
  | refused (e : LoginError)
  | validated (username clientID deviceID : String)
  | denied
  | unknown
  | done
deriving DecidableEq

structure Seen where
  time : Int
  accepted : Option Acceptance
  outcome : Outcome

/-! ### Logins -/

section
variable (A : Sealing String String.utf8ByteSize) (D : Draws)

def encrypt (nonce : Nonce 12) (password : String) : List UInt8 := nonce.1 ++ A.encrypt nonce.1 password

def decrypt (enc : List UInt8) : Option String :=
  if enc.length < 12 + 16 then none else A.decrypt (enc.take 12) (enc.drop 12)

theorem decrypt_encrypt (nonce : Nonce 12) (password : String) :
    decrypt A (encrypt A nonce password) = some password := by
  obtain ⟨nonce,size⟩ := nonce
  have tag := A.encrypt_long nonce password
  grind [decrypt,encrypt,A.decrypt_encrypt]

def authLogin (reply : Option String) : Option String := reply.filter (fun session => session ≠ "")

variable (m : Manager) (i : Input) (now : Int) (token username : String) (opts : Option LoginOpts)

def Manager.isUserEnabled : Bool := ((m.users.lookup username).map User.enabled).getD true

def Manager.userFor (clientID username : String) : User :=
  match m.users.lookup username with
  | some u => if u.clientID = "" then { u with clientID := clientID } else u
  | none => ⟨clientID,true⟩

def Manager.getKey (m : Manager) (i : Input) (keyID : String) : Option Key :=
  if i.fails .getKey then none else m.keys.lookup keyID

def useKey (o : LoginOpts) (key : Key) : Key :=
  let bound :=
    if !key.unlimitedDevices && key.deviceID = none && o.deviceID ≠ "" && !i.fails .upsertKeyDevice then
      { key with deviceID := some o.deviceID, deviceName := o.deviceName }
    else key
  if i.fails .touchKeyLastSeen then bound else { bound with lastSeen := unix now }

def bindDevice : Manager × Option LoginError :=
  match opts with
  | none => (m,none)
  | some o =>
    if o.keyID = "" then (m,none)
    else if !i.fails .isUserEnabled && !m.isUserEnabled username then (m,some .accountDisabled)
    else
      match m.getKey i o.keyID with
      | none => (m,none)
      | some key =>
        if !key.enabled then (m,some .keyDisabled)
        else ({ m with keys := m.keys.insert o.keyID (useKey i m.clock o key) },none)

def newSession (password : Option String)
    (deviceID deviceName camSession : String) (stamp : Stamp) : Manager × Except LoginError String :=
  if i.fails .getOrCreateUser then (m,.error .getUser)
  else
    let user := m.userFor i.clientID username
    let users := m.users.insert username user
    if password.isSome && i.fails .encrypt then ({ m with users := users },.error .encrypt)
    else if i.fails .genToken then ({ m with users := users },.error .genToken)
    else
      let token := D.text m.drawn
      if i.fails .createSession then ({ m with users := users, drawn := m.drawn + 1 },.error .createSession)
      else
        let row : Session :=
          { token := token, username := username, clientID := user.clientID, deviceID := deviceID
            deviceName := deviceName, encPassword := (password.map (encrypt A i.nonce)).getD [], camSession := camSession
            validatedAt := unix m.clock, lastAttempt := unix m.clock, stamp := stamp }
        ({ m with users := users, drawn := m.drawn + 1, sessions := m.sessions.insert token row },.ok token)

def recentSession (ties : Nat) : Option Session :=
  let rows := (m.sessions.entries.map (fun e => e.2)).filter (fun s => s.username = username && s.camSession ≠ "")
  let latest := rows.filter (fun s => rows.all (fun r => r.validatedAt ≤ s.validatedAt))
  latest[ties % latest.length]?

def fallbackRow (password : String) : Option Session :=
  match if i.fails .recentSession then none else recentSession m username i.ties with
  | none => none
  | some recent =>
    if sessionStaleTTL ≤ m.clock - recent.validatedAt * second then none
    else if decrypt A recent.encPassword = some password then some recent
    else none

def finishLogin (password : Option String) (opts : Option LoginOpts)
    (camSession : String) (stamp : Stamp) : Manager × Except LoginError String :=
  match bindDevice m i username opts with
  | (m, some e) => (m,.error e)
  | (m, none) =>
    newSession A D m i username password ((opts.map LoginOpts.deviceID).getD "") ((opts.map LoginOpts.deviceName).getD "")
      camSession stamp

def outcomeOf : Except LoginError String → Outcome
  | .ok token => .token token
  | .error e => .refused e

def Manager.shows (accepted : Option Acceptance) (outcome : Outcome) : Seen := ⟨m.clock,accepted,outcome⟩

def login (password : String) (opts : Option LoginOpts) (reply : Option String) :
    Manager × Seen :=
  match authLogin reply with
  | some camSession =>
    let done := finishLogin A D m i username (some password) opts camSession (.credentials m.clock)
    (done.1,m.shows (some (.credentials username password)) (outcomeOf done.2))
  | none =>
    match fallbackRow A m i username password with
    | none => (m,m.shows none (.refused .camerlengo))
    | some recent =>
      let done := finishLogin A D m i username (some password) opts recent.camSession .fallback
      (done.1,m.shows none (outcomeOf done.2))

def loginWithKey : Manager × Seen :=
  let done := finishLogin A D m i username none opts "" .key
  (done.1,m.shows none (outcomeOf done.2))

def loginAsProxy (password : String) (reply : Option String) : Manager × Seen :=
  match authLogin reply with
  | none => (m,m.shows none (.refused .camerlengo))
  | some camSession =>
    let accepted := some (Acceptance.credentials username password)
    if !i.fails .isUserEnabled && !m.isUserEnabled username then (m,m.shows accepted (.refused .accountDisabled))
    else
      let done := newSession A D m i username (some password) "" "BlackBadger proxy" camSession (.credentials m.clock)
      (done.1,m.shows accepted (outcomeOf done.2))

/-! ### Validation -/

def Manager.update (f : Session → Session) : Manager :=
  match m.sessions.lookup token with
  | none => m
  | some s => { m with sessions := m.sessions.insert token (f s) }

def touchSession : Manager :=
  if i.fails .touchSession then m
  else m.update token (fun s => { s with validatedAt := unix m.clock, stamp := .touched })

def validate : Manager × Seen :=
  if token = "" then (m,m.shows none .denied)
  else if i.fails .getSession then (m,m.shows none .unknown)
  else
    match m.sessions.lookup token with
    | none => (m,m.shows none .denied)
    | some s =>
      if !i.fails .isUserEnabled && !m.isUserEnabled s.username then (m,m.shows none .denied)
      else (touchSession m i token,m.shows none (.validated s.username s.clientID s.deviceID))

/-! ### The refresher -/

def Manager.settle (p : Pass) : Manager :=
  if p.rest.isEmpty && p.waiting.isNone then
    { m with pass := none, lastPass := if p.clean then p.start else m.lastPass }
  else { m with pass := some p }

def passStart : Manager :=
  match m.pass with
  | some _ => m
  | none =>
    if i.fails .listSessions then m
    else m.settle ⟨m.clock,m.sessions.entries.map (fun e => e.2),none,true⟩

def examine : Manager :=
  match m.pass with
  | some ⟨start, s :: rest, none, clean⟩ =>
    let age := start - s.validatedAt * second
    if age < sessionValidateTTL then m.settle ⟨start,rest,none,clean⟩
    else if sessionStaleTTL < age then
      if i.fails .deleteSession then m.settle ⟨start,rest,none,false⟩
      else { m with sessions := m.sessions.erase s.token }.settle ⟨start,rest,none,clean⟩
    else if s.camSession = "" then m.settle ⟨start,rest,none,clean⟩
    else if start - s.lastAttempt * second < sessionRetryCooldown then m.settle ⟨start,rest,none,clean⟩
    else
      let m' := if i.fails .touchLastAttempt then m else m.update s.token (fun r => { r with lastAttempt := unix start })
      m'.settle ⟨start,rest,some s,clean⟩
  | _ => m

def updateCamSession (camSession : String) (now : Int) (stamp : Stamp) : Manager :=
  if i.fails .updateCamSession then m
  else m.update token (fun s =>
    { s with camSession := camSession, validatedAt := unix now, lastAttempt := unix now, stamp := stamp })

def answer (reply : Reply) : Manager × Seen :=
  match m.pass with
  | some ⟨start, rest, some s, clean⟩ =>
    let p : Pass := ⟨start,rest,none,clean⟩
    match reply with
    | .error => (m.settle p,m.shows none .done)
    | .user name relogin =>
      if name ≠ "" then
        ((updateCamSession m i s.token s.camSession start (.camSession m.clock)).settle p,
          m.shows (some (.camSession s.camSession)) .done)
      else
        match decrypt A s.encPassword with
        | none => (m.settle p,m.shows none .done)
        | some password =>
          match authLogin relogin with
          | none => (m.settle p,m.shows none .done)
          | some camSession =>
            ((updateCamSession m i s.token camSession start (.credentials m.clock)).settle p,
              m.shows (some (.credentials s.username password)) .done)
  | _ => (m,m.shows none .done)

def act : Manager × Seen :=
  match i.event with
  | .login username password opts reply => login A D m i username password opts reply
  | .loginWithKey username opts => loginWithKey A D m i username opts
  | .loginAsProxy username password reply => loginAsProxy A D m i username password reply
  | .validate token => validate m i token
  | .adminPage token => (touchSession m i token,m.shows none .done)
  | .passStart => (passStart m i,m.shows none .done)
  | .examine => (examine m i,m.shows none .done)
  | .answer reply => answer A m i reply
  | .restart => ({ m with pass := none },m.shows none .done)
  | .setUser username user => ({ m with users := m.users.insert username user },m.shows none .done)
  | .setKey keyID key =>
    ({ m with keys := match key with | some k => m.keys.insert keyID k | none => m.keys.erase keyID },
      m.shows none .done)

def Manager.wait (after : Nat) : Manager := { m with clock := m.clock + after }

def step : Manager × Seen := act A D (m.wait i.after) i

def start : Manager := ⟨0,∅,∅,∅,0,none,0⟩

/-! ### What is kept -/

def AcceptedAt (past : List Seen) (a : Acceptance) (time : Int) : Prop := ∃ o ∈ past, o.accepted = some a ∧ o.time = time

/-- When the stamp of a row says that Camerlengo accepted something, it did, for the
    user and the password of the row or for its session, and not before the time in
    `validated_at`. -/
def Stamped (past : List Seen) (s : Session) : Prop :=
  match s.stamp with
  | .credentials time => s.validatedAt * second ≤ time ∧
      ∃ password, decrypt A s.encPassword = some password ∧ AcceptedAt past (.credentials s.username password) time
  | .camSession time => s.validatedAt * second ≤ time ∧ AcceptedAt past (.camSession s.camSession) time
  | _ => True

/-- What a pass under way can rely on: the rows it has still to do are rows of the
    table as they were listed, and every other row is not yet stale. -/
structure PassSound (m : Manager) (p : Pass) : Prop where
  began : m.lastPass ≤ p.start ∧ p.start ≤ m.clock
  drawn : ∀ b, b ∈ p.rest ∨ p.waiting = some b → ∃ n < m.drawn, b.token = D.text n
  listed : ∀ b, b ∈ p.rest ∨ p.waiting = some b → ∀ s, m.sessions.lookup b.token = some s →
    s.username = b.username ∧ s.encPassword = b.encPassword
  fresh : p.clean = true → ∀ token s, m.sessions.lookup token = some s →
    p.start - s.validatedAt * second ≤ sessionStaleTTL ∨
      ∃ b ∈ p.rest, b.token = token ∧ b.validatedAt = s.validatedAt

structure Sound (past : List Seen) (m : Manager) : Prop where
  began : m.lastPass ≤ m.clock
  before : ∀ o ∈ past, o.time ≤ m.clock
  named : ∀ token s, m.sessions.lookup token = some s → s.token = token ∧ ∃ n < m.drawn, token = D.text n
  stamped : ∀ token s, m.sessions.lookup token = some s → Stamped A past s
  fresh : ∀ token s, m.sessions.lookup token = some s → m.lastPass - s.validatedAt * second ≤ sessionStaleTTL
  pass : ∀ p, m.pass = some p → PassSound D m p

/-- What a row has to be like that a step writes: besides its own fields, a pass under way may rely
    on it. -/
structure Fits (past : List Seen) (m : Manager) (token : String) (s : Session) : Prop where
  own : s.token = token
  drawn : ∃ n < m.drawn, token = D.text n
  stamped : Stamped A past s
  fresh : m.lastPass - s.validatedAt * second ≤ sessionStaleTTL
  listed : ∀ p, m.pass = some p → ∀ b, b ∈ p.rest ∨ p.waiting = some b → b.token = token →
    s.username = b.username ∧ s.encPassword = b.encPassword
  inPass : ∀ p, m.pass = some p → p.clean = true → p.start - s.validatedAt * second ≤ sessionStaleTTL ∨
    ∃ b ∈ p.rest, b.token = token ∧ b.validatedAt = s.validatedAt

variable {A D}

theorem sound_start : Sound A D [] start where
  began := Int.le_refl 0
  before _ none := by cases none
  named _ _ found := by cases found
  stamped _ _ found := by cases found
  fresh _ _ found := by cases found
  pass _ none := by cases none

variable {past : List Seen} {s : Session}

theorem stamped_append (stamped : Stamped A past s) (o : Seen) :
    Stamped A (past ++ [o]) s := by
  have later : ∀ {a time}, AcceptedAt past a time → AcceptedAt (past ++ [o]) a time :=
    fun ⟨o',member,same⟩ => ⟨o',mem_append_left _ member,same⟩
  unfold Stamped at *
  grind

variable {m}

variable (sound : Sound A D past m)
include sound

theorem Sound.of_rows {m' : Manager} (clock : m.clock ≤ m'.clock) (drawn : m.drawn ≤ m'.drawn)
    (last : m'.lastPass = m.lastPass) (pass : m'.pass = m.pass)
    (rows : ∀ token s, m'.sessions.lookup token = some s → m.sessions.lookup token = some s ∨ Fits A D past m' token s) :
    Sound A D past m' := by
  constructor
  · rw [last]
    exact sound.began.trans clock
  · exact fun o member => (sound.before o member).trans clock
  · intro token s found
    rcases rows token s found with old | new
    · grind [sound.named]
    · exact ⟨new.own,new.drawn⟩
  · intro token s found
    rcases rows token s found with old | new
    · exact sound.stamped token s old
    · exact new.stamped
  · intro token s found
    rcases rows token s found with old | new
    · rw [last]
      exact sound.fresh token s old
    · exact new.fresh
  · intro p running
    obtain ⟨began,tokens,listed,fresh⟩ := sound.pass p (pass ▸ running)
    refine ⟨⟨last ▸ began.1,began.2.trans clock⟩,?_,?_,?_⟩
    · grind
    · intro b member s found
      rcases rows _ s found with old | new
      · exact listed b member s old
      · exact new.listed p running b member rfl
    · intro clean token s found
      rcases rows token s found with old | new
      · exact fresh clean token s old
      · exact new.inPass p running clean

theorem Sound.wait (n : Nat) : Sound A D past (m.wait n) :=
  sound.of_rows (show m.clock ≤ m.clock + n by omega) (Nat.le_refl _) rfl rfl (fun _ _ => .inl)

theorem Sound.observe {o : Seen} (time : o.time = m.clock) :
    Sound A D (past ++ [o]) m where
  began := sound.began
  before o' member := by
    rcases mem_append.mp member with old | new
    · exact sound.before o' old
    · rw [mem_singleton.mp new,time]
  named := sound.named
  stamped token s found := stamped_append (sound.stamped token s found) o
  fresh := sound.fresh
  pass := sound.pass

theorem Sound.others (users : Table String User)
    (keys : Table String Key) : Sound A D past { m with users := users, keys := keys } :=
  sound.of_rows (Int.le_refl _) (Nat.le_refl _) rfl rfl (fun _ _ => .inl)

theorem Sound.draw : Sound A D past { m with drawn := m.drawn + 1 } :=
  sound.of_rows (Int.le_refl _) (Nat.le_succ _) rfl rfl (fun _ _ => .inl)

omit sound

theorem unix_le : unix now * second ≤ now := by
  unfold unix second
  omega

theorem lt_unix : now - second < unix now * second := by
  unfold unix second
  omega

theorem not_stale {moment now : Int} (later : moment ≤ now) : moment - unix now * second ≤ sessionStaleTTL := by
  have := lt_unix now
  unfold sessionStaleTTL hour
  unfold second at *
  omega

variable {row : Session} {i} {deviceID camSession : String} {username} {password : Option String}
variable {stamp : Stamp}

theorem Sound.insert (sound : Sound A D past m)
    (token : row.token = D.text m.drawn) (now : row.validatedAt = unix m.clock) (stamped : Stamped A past row) :
    Sound A D past { m with drawn := m.drawn + 1, sessions := m.sessions.insert (D.text m.drawn) row } := by
  refine sound.of_rows (Int.le_refl _) (Nat.le_succ _) rfl rfl ?_
  intro tok s found
  rcases of_lookup_insert found with ⟨rfl,rfl⟩ | ⟨_,old⟩
  · refine .inr ⟨token,⟨_,Nat.lt_succ_self _,rfl⟩,stamped,now ▸ not_stale sound.began,?_,?_⟩
    · -- the new token was not drawn when the pass listed its rows
      intro p running b member same
      obtain ⟨n,below,text⟩ := (sound.pass p running).drawn b member
      grind [D.text_injective]
    · intro p running _
      exact .inl (now ▸ not_stale (sound.pass p running).began.2)
  · exact .inl old

/-- An update writes a row of the same user with the same password, and either leaves
    `validated_at` or writes a time that no pass finds stale. -/
structure Rewrites (past : List Seen) (m : Manager) (s s' : Session) : Prop where
  token : s'.token = s.token
  username : s'.username = s.username
  password : s'.encPassword = s.encPassword
  stamped : Stamped A past s'
  validated : s'.validatedAt = s.validatedAt ∨ m.lastPass - s'.validatedAt * second ≤ sessionStaleTTL ∧
    ∀ p, m.pass = some p → p.start - s'.validatedAt * second ≤ sessionStaleTTL

theorem Sound.update (sound : Sound A D past m) (token : String)
    {f : Session → Session} (rewrites : ∀ s, m.sessions.lookup token = some s → Rewrites (A := A) past m s (f s)) :
    Sound A D past (m.update token f) := by
  unfold Manager.update
  cases found : m.sessions.lookup token with
  | none => exact sound
  | some old =>
    have changed := rewrites old found
    refine sound.of_rows (Int.le_refl _) (Nat.le_refl _) rfl rfl ?_
    intro tok s found'
    rcases of_lookup_insert found' with ⟨rfl,rfl⟩ | ⟨_,other⟩
    · obtain ⟨same,drawn⟩ := sound.named tok old found
      refine .inr ⟨changed.token.trans same,drawn,changed.stamped,?_,?_,?_⟩
      · grind [changed.validated,sound.fresh]
      · intro p running b member same
        have before := (sound.pass p running).listed b member old (same ▸ found)
        grind [changed.username,changed.password]
      · intro p running clean
        rcases changed.validated with same | ⟨_,bound⟩
        · rw [same]
          exact (sound.pass p running).fresh clean tok old found
        · exact .inl (bound p running)
    · exact .inl other

theorem Sound.settle (sound : Sound A D past m) {p : Pass} (pass : PassSound D m p) :
    Sound A D past (m.settle p) := by
  unfold Manager.settle
  by_cases ended : (p.rest.isEmpty && p.waiting.isNone) = true
  · rw [if_pos ended]
    have none : p.rest = [] := isEmpty_iff.mp (Bool.and_eq_true_iff.mp ended).1
    refine ⟨?_,sound.before,sound.named,sound.stamped,?_,fun q none => by cases none⟩
    · grind [pass.began]
    · intro token s found
      cases clean : p.clean with
      | true =>
        rcases pass.fresh clean token s found with bound | ⟨b,member,_⟩
        · exact bound
        · rw [none] at member
          cases member
      | false => exact sound.fresh token s found
  · rw [if_neg ended]
    refine ⟨sound.began,sound.before,sound.named,sound.stamped,sound.fresh,?_⟩
    intro q running
    cases running
    exact ⟨pass.began,pass.drawn,pass.listed,pass.fresh⟩

/-! ### Every step keeps it -/

theorem bindDevice_fst (m : Manager) (i : Input) (username : String) (opts : Option LoginOpts) :
    ∃ keys, (bindDevice m i username opts).1 = { m with keys := keys } := by
  unfold bindDevice
  cases opts with
  | none => exact ⟨m.keys,rfl⟩
  | some o =>
    dsimp only
    by_cases unbound : o.keyID = ""
    · rw [if_pos unbound]
      exact ⟨m.keys,rfl⟩
    rw [if_neg unbound]
    cases (!i.fails .isUserEnabled && !m.isUserEnabled username) with
    | true => exact ⟨m.keys,rfl⟩
    | false =>
      cases m.getKey i o.keyID with
      | none => exact ⟨m.keys,rfl⟩
      | some key =>
        cases disabled : !key.enabled with
        | true => exact ⟨m.keys,by simp [disabled]⟩
        | false => exact ⟨m.keys.insert o.keyID (useKey i m.clock o key),by simp [disabled]⟩

theorem newSession_sound (sound : Sound A D past m) {deviceName : String}
    (stamped : ∀ row : Session, row.username = username → row.encPassword = (password.map (encrypt A i.nonce)).getD [] →
      row.validatedAt = unix m.clock → row.stamp = stamp → Stamped A past row) :
    Sound A D past (newSession A D m i username password deviceID deviceName camSession stamp).1 := by
  have users := sound.others (m.users.insert username (m.userFor i.clientID username)) m.keys
  grind [newSession,users.draw,users.insert]

theorem finishLogin_sound (sound : Sound A D past m) {opts : Option LoginOpts}
    (stamped : ∀ row : Session, row.username = username → row.encPassword = (password.map (encrypt A i.nonce)).getD [] →
      row.validatedAt = unix m.clock → row.stamp = stamp → Stamped A past row) :
    Sound A D past (finishLogin A D m i username password opts camSession stamp).1 := by
  obtain ⟨keys,same⟩ := bindDevice_fst m i username opts
  grind [sound.others,finishLogin,newSession_sound]

theorem stamped_credentials {password : String} {now time : Int}
    (stamp : row.stamp = .credentials time) (validated : row.validatedAt = unix now) (order : now ≤ time)
    (read : decrypt A row.encPassword = some password)
    (accepted : AcceptedAt past (.credentials row.username password) time) : Stamped A past row := by
  unfold Stamped
  rw [stamp]
  refine ⟨?_,password,read,accepted⟩
  rw [validated]
  exact Int.le_trans (unix_le now) order

theorem stamped_other
    (stamp : row.stamp = .touched ∨ row.stamp = .fallback ∨ row.stamp = .key) : Stamped A past row := by
  unfold Stamped
  rcases stamp with same | same | same <;> simp [same]

theorem accepted_shown (past : List Seen) (m : Manager) (a : Acceptance) (outcome : Outcome) :
    AcceptedAt (past ++ [m.shows (some a) outcome]) a m.clock :=
  ⟨_,mem_append_right _ mem_cons_self,rfl,rfl⟩

variable (sound : Sound A D past m)
include sound

theorem login_sound (i : Input) (username password : String)
    (opts : Option LoginOpts) (reply : Option String) :
    Sound A D (past ++ [(login A D m i username password opts reply).2])
      (login A D m i username password opts reply).1 := by
  unfold login
  cases authLogin reply with
  | some camSession =>
    apply finishLogin_sound (sound.observe rfl)
    grind [stamped_credentials,decrypt_encrypt,accepted_shown]
  | none =>
    cases fallbackRow A m i username password with
    | none => exact sound.observe rfl
    | some recent =>
      apply finishLogin_sound (sound.observe rfl)
      intro row _ _ _ stamp
      exact stamped_other (.inr (.inl stamp))

theorem loginWithKey_sound (i : Input) (username : String)
    (opts : Option LoginOpts) :
    Sound A D (past ++ [(loginWithKey A D m i username opts).2]) (loginWithKey A D m i username opts).1 := by
  apply finishLogin_sound (sound.observe rfl)
  intro row _ _ _ stamp
  exact stamped_other (.inr (.inr stamp))

theorem loginAsProxy_sound (i : Input)
    (username password : String) (reply : Option String) :
    Sound A D (past ++ [(loginAsProxy A D m i username password reply).2])
      (loginAsProxy A D m i username password reply).1 := by
  unfold loginAsProxy
  cases authLogin reply with
  | none => exact sound.observe rfl
  | some camSession =>
    split_ifs
    · exact sound.observe rfl
    · apply newSession_sound (sound.observe rfl)
      grind [stamped_credentials,decrypt_encrypt,accepted_shown]

theorem touchSession_sound (i : Input) (token : String) :
    Sound A D past (touchSession m i token) := by
  unfold touchSession
  split_ifs
  · exact sound
  · apply sound.update
    intro s found
    refine ⟨rfl,rfl,rfl,stamped_other (.inl rfl),.inr ⟨not_stale sound.began,?_⟩⟩
    intro p running
    exact not_stale (sound.pass p running).began.2

theorem validate_sound (i : Input) (token : String) :
    Sound A D (past ++ [(validate m i token).2]) (validate m i token).1 := by
  unfold validate
  split_ifs
  · exact sound.observe rfl
  · exact sound.observe rfl
  · cases m.sessions.lookup token with
    | none => exact sound.observe rfl
    | some s =>
      dsimp only
      split_ifs
      · exact sound.observe rfl
      · exact touchSession_sound (sound.observe rfl) i token

omit sound

theorem update_pass (m : Manager) (token : String) (f : Session → Session) : (m.update token f).pass = m.pass := by
  unfold Manager.update
  split <;> rfl

theorem PassSound.listing (sound : Sound A D past m) :
    PassSound D m ⟨m.clock,m.sessions.entries.map (fun e => e.2),none,true⟩ := by
  have rows : ∀ b, b ∈ m.sessions.entries.map (fun e => e.2) ∨ none = some b →
      m.sessions.lookup b.token = some b ∧ ∃ n < m.drawn, b.token = D.text n := by
    rintro b (member | none)
    · obtain ⟨⟨token,s⟩,inside,rfl⟩ := mem_map.mp member
      have found : m.sessions.lookup token = some s := AList.mem_lookup_iff.mpr inside
      grind [sound.named]
    · cases none
  refine ⟨⟨sound.began,Int.le_refl _⟩,fun b member => (rows b member).2,?_,?_⟩
  · grind
  · intro _ token s found
    have inside := AList.mem_lookup_iff.mp found
    grind [sound.named]

variable {rest : List Session} {clean : Bool} {waiting : Option Session}

theorem PassSound.fewer {p : Pass} (pass : PassSound D m p) {sessions : Table String Session}
    (members : ∀ b, b ∈ rest ∨ waiting = some b → b ∈ p.rest ∨ p.waiting = some b)
    (rows : ∀ token s, sessions.lookup token = some s → m.sessions.lookup token = some s)
    (fresh : clean = true → ∀ token s, sessions.lookup token = some s →
      p.start - s.validatedAt * second ≤ sessionStaleTTL ∨ ∃ b ∈ rest, b.token = token ∧ b.validatedAt = s.validatedAt) :
    PassSound D { m with sessions := sessions } ⟨p.start,rest,waiting,clean⟩ where
  began := pass.began
  drawn b member := pass.drawn b (members b member)
  listed b member s found := pass.listed b (members b member) s (rows _ s found)
  fresh := fresh

theorem PassSound.next {start : Int} (pass : PassSound D m ⟨start,s :: rest,none,clean⟩) (bound : start - s.validatedAt * second ≤ sessionStaleTTL)
    (asked : ∀ b, waiting = some b → b = s) :
    PassSound D m ⟨start,rest,waiting,clean⟩ := by
  refine pass.fewer ?_ (fun _ _ found => found) ?_
  · grind
  · intro isClean token r found
    rcases pass.fresh isClean token r found with fine | ⟨b,member,same,validated⟩
    · exact .inl fine
    grind

theorem PassSound.answered {start : Int} (pass : PassSound D m ⟨start,rest,waiting,clean⟩) : PassSound D m ⟨start,rest,none,clean⟩ := by
  refine pass.fewer ?_ (fun _ _ found => found) pass.fresh
  rintro b (later | none)
  · exact .inl later
  · cases none

theorem passStart_sound (sound : Sound A D past m) (i : Input) :
    Sound A D past (passStart m i) := by
  grind [passStart,sound.settle,PassSound.listing]

theorem Sound.erase (sound : Sound A D past m) (token : String) :
    Sound A D past { m with sessions := m.sessions.erase token } :=
  sound.of_rows (Int.le_refl _) (Nat.le_refl _) rfl rfl (fun _ _ found => .inl (of_lookup_erase found).2)

theorem later_rows (b : Session) (member : b ∈ rest ∨ none = some b) :
    b ∈ s :: rest ∨ none = some b := by
  grind

theorem PassSound.erased {start : Int} (pass : PassSound D m ⟨start,s :: rest,none,clean⟩) :
    PassSound D { m with sessions := m.sessions.erase s.token } ⟨start,rest,none,clean⟩ := by
  refine pass.fewer later_rows (fun _ _ found => (of_lookup_erase found).2) ?_
  intro isClean token r found
  obtain ⟨other,old⟩ := of_lookup_erase found
  rcases pass.fresh isClean token r old with fine | ⟨b,member,same,validated⟩
  · exact .inl fine
  · grind

theorem PassSound.failed {start : Int} (pass : PassSound D m ⟨start,s :: rest,none,clean⟩) : PassSound D m ⟨start,rest,none,false⟩ := by
  refine pass.fewer later_rows (fun _ _ found => found) ?_
  intro clean
  cases clean

variable (sound : Sound A D past m)
include sound

theorem examine_sound (i : Input) :
    Sound A D past (examine m i) := by
  unfold examine
  split
  · next start s rest clean running =>
    have pass := sound.pass _ running
    dsimp only
    split_ifs with young stale _ keyed cooling
    · grind [sound.settle,pass.next,sessionStaleTTL,hour,sessionValidateTTL,minute,second]
    · exact sound.settle pass.failed
    · exact (sound.erase s.token).settle pass.erased
    · exact sound.settle (pass.next (Int.not_lt.mp stale) (by simp))
    · exact sound.settle (pass.next (Int.not_lt.mp stale) (by simp))
    · exact sound.settle (pass.next (Int.not_lt.mp stale) (by simp))
    · have marked : Sound A D past (m.update s.token (fun r => { r with lastAttempt := unix start })) := by
        apply sound.update
        intro r found
        exact ⟨rfl,rfl,rfl,sound.stamped s.token r found,.inl rfl⟩
      refine marked.settle ((marked.pass _ ?_).next (Int.not_lt.mp stale) (by simp))
      rw [update_pass,running]
  · exact sound

theorem updateCamSession_sound {start : Int}
    (running : m.pass = some ⟨start,rest,some s,clean⟩) (i : Input)
    (stamped : ∀ row : Session, row.username = s.username → row.encPassword = s.encPassword →
      row.camSession = camSession → row.validatedAt = unix start → row.stamp = stamp → Stamped A past row) :
    Sound A D past ((updateCamSession m i s.token camSession start stamp).settle ⟨start,rest,none,clean⟩) := by
  have pass := sound.pass _ running
  unfold updateCamSession
  split_ifs
  · exact sound.settle pass.answered
  · have written : Sound A D past (m.update s.token (fun r =>
        { r with camSession := camSession, validatedAt := unix start, lastAttempt := unix start, stamp := stamp })) := by
      apply sound.update
      intro r found
      obtain ⟨user,enc⟩ := pass.listed s (.inr rfl) r found
      refine ⟨rfl,rfl,rfl,stamped _ user enc rfl rfl rfl,.inr ⟨not_stale pass.began.1,?_⟩⟩
      intro p other
      cases running.symm.trans other
      exact not_stale (Int.le_refl _)
    refine written.settle (written.pass ⟨start,rest,some s,clean⟩ ?_).answered
    rw [update_pass,running]

theorem answer_sound (i : Input) (reply : Reply) :
    Sound A D (past ++ [(answer A m i reply).2]) (answer A m i reply).1 := by
  unfold answer
  split
  · next start rest s clean running =>
    have pass := sound.pass _ running
    have kept : ∀ {o : Seen}, o.time = m.clock → Sound A D (past ++ [o]) (m.settle ⟨start,rest,none,clean⟩) :=
      fun time => (sound.observe time).settle pass.answered
    cases reply with
    | error => exact kept rfl
    | user name relogin =>
      dsimp only
      by_cases valid : name ≠ ""
      · rw [if_pos valid]
        apply updateCamSession_sound (sound.observe rfl) running
        intro row _ _ session validated stamp
        unfold Stamped
        rw [stamp]
        constructor
        · rw [validated]
          exact Int.le_trans (unix_le start) pass.began.2
        · rw [session]
          exact accepted_shown _ _ _ _
      rw [if_neg valid]
      cases read : decrypt A s.encPassword with
      | none => exact kept rfl
      | some password =>
        cases authLogin relogin with
        | none => exact kept rfl
        | some camSession =>
          apply updateCamSession_sound (sound.observe rfl) running
          grind [stamped_credentials,pass.began,accepted_shown]
  · exact sound.observe rfl

theorem Sound.restart :
    Sound A D past { m with pass := none } :=
  ⟨sound.began,sound.before,sound.named,sound.stamped,sound.fresh,fun _ none => by cases none⟩

omit sound

theorem step_sound : Kept (step A D) (Sound A D) := by
  intro past m i sound
  have now := sound.wait i.after
  unfold step act
  cases i.event with
  | login username password opts reply => exact login_sound now i username password opts reply
  | loginWithKey username opts => exact loginWithKey_sound now i username opts
  | loginAsProxy username password reply => exact loginAsProxy_sound now i username password reply
  | validate token => exact validate_sound now i token
  | adminPage token => exact touchSession_sound (now.observe rfl) i token
  | passStart => exact passStart_sound (now.observe rfl) i
  | examine => exact examine_sound (now.observe rfl) i
  | answer reply => exact answer_sound now i reply
  | restart => exact (now.observe rfl).restart
  | setUser username user => exact (now.observe rfl).others _ _
  | setKey keyID key => exact (now.observe rfl).others _ _

variable (A D)

theorem run_sound (first : List Input) : Sound A D (trace (step A D) start first) (final (step A D) start first) :=
  invariant_run step_sound first [] start sound_start

/-! ### How long ago Camerlengo said yes: validation -/

/-- Camerlengo's word wrote `validated_at` last. -/
def ByCamerlengo (s : Session) (time : Int) : Prop := s.stamp = .credentials time ∨ s.stamp = .camSession time

/-- Within a span before `now`, Camerlengo accepted the user with a password, or the session. -/
def AcceptedWithin (past : List Seen) (username camSession : String) (now span : Int) : Prop :=
  ∃ o ∈ past, o.time ≤ now ∧ now - o.time ≤ span ∧
    (o.accepted = some (.camSession camSession) ∨ ∃ password, o.accepted = some (.credentials username password))

variable {A D}

theorem accepted_of_stamp {time : Int} (stamped : Stamped A past s)
    (stamp : ByCamerlengo s time) :
    s.validatedAt * second ≤ time ∧ ∃ o ∈ past, o.time = time ∧
      (o.accepted = some (.camSession s.camSession) ∨
        ∃ password, o.accepted = some (.credentials s.username password)) := by
  unfold Stamped at stamped
  rcases stamp with same | same
  · rw [same] at stamped
    obtain ⟨bound,password,_,o,member,accepted,rfl⟩ := stamped
    exact ⟨bound,o,member,rfl,.inr ⟨password,accepted⟩⟩
  · rw [same] at stamped
    obtain ⟨bound,o,member,accepted,rfl⟩ := stamped
    exact ⟨bound,o,member,rfl,.inl accepted⟩

theorem validate_accepted {token clientID : String}
    (accepted : (validate m i token).2.outcome = .validated username clientID deviceID) :
    ∃ s, m.sessions.lookup token = some s ∧ s.username = username := by
  unfold validate at accepted
  split_ifs at accepted
  · cases accepted
  · cases accepted
  · split at accepted
    · cases accepted
    · next s found =>
      split_ifs at accepted
      · cases accepted
      · cases accepted
        exact ⟨s,found,rfl⟩

variable (A D)

/-- In every history, when `Validate` accepts the token of a row that Camerlengo's word
    wrote last, Camerlengo gave it within three hours and the time since the refresher
    last began a pass that it went through. -/
theorem validated_recently (first : List Input) (i : Input) {token username clientID deviceID : String} {period : Int}
    (event : i.event = .validate token)
    (accepted : (step A D (final (step A D) start first) i).2.outcome = .validated username clientID deviceID)
    (timely : (final (step A D) start first).clock + i.after - (final (step A D) start first).lastPass ≤ period)
    (stamp : ∀ s, (final (step A D) start first).sessions.lookup token = some s → ∃ time, ByCamerlengo s time) :
    ∃ s, (final (step A D) start first).sessions.lookup token = some s ∧ s.username = username ∧
      AcceptedWithin (trace (step A D) start first) username s.camSession ((final (step A D) start first).clock + i.after)
        (sessionStaleTTL + period) := by
  have sound := run_sound A D first
  have validated : (validate ((final (step A D) start first).wait i.after) i token).2.outcome =
      .validated username clientID deviceID := by
    rw [← accepted,step,act,event]
  obtain ⟨s,found,rfl⟩ := validate_accepted validated
  refine ⟨s,found,rfl,?_⟩
  obtain ⟨time,byCamerlengo⟩ := stamp s found
  obtain ⟨bound,o,member,rfl,what⟩ := accepted_of_stamp (sound.stamped token s found) byCamerlengo
  have earlier := sound.before o member
  have fresh := sound.fresh token s found
  exact ⟨o,member,by omega,by omega,what⟩

end

def quietly (after : Int) (event : Event) : Input :=
  ⟨after.toNat,fun _ => false,zeroNonce 12,0,"",event⟩

noncomputable def sampleSealing : Sealing String String.utf8ByteSize := Sealing.symbolic String String.utf8ByteSize

def sampleToken : String := Draws.unary.text 0

def sampleLogin : Input := quietly 0 (.login "user" "password" none (some "session"))

theorem validated_recently_after_login :
    let m := final (step sampleSealing Draws.unary) start [sampleLogin]
    let i := quietly minute (.validate sampleToken)
    (step sampleSealing Draws.unary m i).2.outcome = .validated "user" "" "" ∧
    ∃ s, m.sessions.lookup sampleToken = some s ∧ s.username = "user" ∧
      AcceptedWithin (trace (step sampleSealing Draws.unary) start [sampleLogin]) "user" s.camSession
        (m.clock + (i.after : Int)) (sessionStaleTTL + minute) := by
  intro m i
  refine ⟨rfl,?_⟩
  apply validated_recently sampleSealing Draws.unary [sampleLogin] i rfl rfl
  · decide
  · intro s found
    cases found
    exact ⟨0,.inl rfl⟩

def passMinute : List Input := [quietly minute .passStart,quietly 0 .examine]

def activeClient : Nat → List Input
  | 0 => []
  | n + 1 => (List.replicate 14 passMinute).flatten ++ quietly 0 (.validate sampleToken) :: activeClient n

/-- The session of a client that stays active is accepted after three hours and a pass,
    though Camerlengo was never asked again: with the refresher at work every minute,
    no pass finds the row older than a quarter of an hour. -/
theorem active_session_outlives_acceptance :
    ¬ ∀ (A : Sealing String String.utf8ByteSize) (D : Draws) (first : List Input) (i : Input)
        (token username clientID deviceID : String) (s : Session) (period : Int),
      let m := final (step A D) start first
      i.event = .validate token → (step A D m i).2.outcome = .validated username clientID deviceID →
      m.sessions.lookup token = some s → s.camSession ≠ "" → m.clock + i.after - m.lastPass ≤ period →
      AcceptedWithin (trace (step A D) start first) username s.camSession (m.clock + i.after)
        (sessionStaleTTL + period) := by
  intro bounded
  let first := sampleLogin :: activeClient 13
  let now := (final (step sampleSealing Draws.unary) start first).clock + ((quietly 0 (.validate sampleToken)).after : Int)
  have late : ∀ o ∈ trace (step sampleSealing Draws.unary) start first,
      o.accepted ≠ none → sessionStaleTTL + minute < now - o.time := by decide +kernel
  have row : ((final (step sampleSealing Draws.unary) start first).sessions.lookup sampleToken).map Session.camSession =
      some "session" := by decide +kernel
  obtain ⟨s,found,session⟩ := Option.map_eq_some_iff.mp row
  have keyed : s.camSession ≠ "" := by simp [session]
  obtain ⟨o,member,_,recent,what⟩ := bounded sampleSealing Draws.unary first (quietly 0 (.validate sampleToken))
    sampleToken "user" "" "" s minute rfl (by decide +kernel) found keyed (by decide +kernel)
  have accepted : o.accepted ≠ none := by
    rcases what with same | ⟨password,same⟩ <;> simp [same]
  exact absurd recent (Int.not_le.mpr (late o member accepted))

/-! ### How long ago Camerlengo said yes: logins without it -/

section
variable {A : Sealing String String.utf8ByteSize} {D : Draws}
variable {username password : String}
variable {m : Manager} {i : Input} {s : Session} {opts : Option LoginOpts} {reply : Option String}

theorem fallbackRow_eq_some :
    fallbackRow A m i username password = some s ↔
      i.fails .recentSession = false ∧ recentSession m username i.ties = some s ∧
        m.clock - s.validatedAt * second < sessionStaleTTL ∧ decrypt A s.encPassword = some password := by
  unfold fallbackRow
  cases works : i.fails .recentSession with
  | true => simp
  | false =>
    cases recentSession m username i.ties with
    | none => simp
    | some recent =>
      grind

theorem recentSession_row {username : String} {ties : Nat}
    (recent : recentSession m username ties = some s) :
    s.username = username ∧ ∃ token, m.sessions.lookup token = some s := by
  have latest := mem_of_mem_filter (mem_of_getElem? recent)
  obtain ⟨row,wanted⟩ := mem_filter.mp latest
  obtain ⟨⟨token,s⟩,inside,rfl⟩ := mem_map.mp row
  simp only [Bool.and_eq_true,decide_eq_true_eq] at wanted
  exact ⟨wanted.1,token,AList.mem_lookup_iff.mpr inside⟩

theorem login_without {token : String} (failed : authLogin reply = none)
    (issued : (login A D m i username password opts reply).2.outcome = .token token) :
    ∃ s, fallbackRow A m i username password = some s := by
  unfold login at issued
  rw [failed] at issued
  cases row : fallbackRow A m i username password with
  | none =>
    rw [row] at issued
    cases issued
  | some s => exact ⟨s,rfl⟩

theorem login_by_row (failed : authLogin reply = none)
    (row : fallbackRow A m i username password = some s) :
    login A D m i username password opts reply =
      ((finishLogin A D m i username (some password) opts s.camSession .fallback).1,
        m.shows none (outcomeOf (finishLogin A D m i username (some password) opts s.camSession .fallback).2)) := by
  unfold login
  rw [failed]
  rw [row]

variable (A D)

/-- In every history, when a login succeeds without Camerlengo by a row that a password
    wrote last, Camerlengo accepted this user with this password within three hours. -/
theorem fallback_recently (first : List Input) (i : Input) {username password : String} {opts : Option LoginOpts}
    {reply : Option String} {token : String} (event : i.event = .login username password opts reply)
    (failed : authLogin reply = none)
    (issued : (step A D (final (step A D) start first) i).2.outcome = .token token)
    (stamp : ∀ s, recentSession (final (step A D) start first) username i.ties = some s →
      ∃ time, s.stamp = .credentials time) :
    ∃ o ∈ trace (step A D) start first, o.accepted = some (.credentials username password) ∧
      o.time ≤ (final (step A D) start first).clock + i.after ∧
      (final (step A D) start first).clock + i.after - o.time < sessionStaleTTL := by
  have sound := run_sound A D first
  have shown : (login A D ((final (step A D) start first).wait i.after) i username password opts reply).2.outcome =
      .token token := by
    rw [← issued,step,act,event]
  obtain ⟨s,row⟩ := login_without failed shown
  obtain ⟨_,recent,young,read⟩ := fallbackRow_eq_some.mp row
  obtain ⟨user,key,found⟩ := recentSession_row recent
  obtain ⟨time,byPassword⟩ := stamp s recent
  have stamped := sound.stamped key s found
  unfold Stamped at stamped
  rw [byPassword] at stamped
  obtain ⟨bound,known,opened,o,member,accepted,rfl⟩ := stamped
  cases read.symm.trans opened
  rw [user] at accepted
  have earlier := sound.before o member
  dsimp only [Manager.wait] at young
  exact ⟨o,member,accepted,by omega,by omega⟩

end

def loginWithout : Input := quietly (2 * hour) (.login "user" "password" none none)

noncomputable def sampleRow : Session :=
  { token := sampleToken, username := "user", clientID := "", deviceID := "", deviceName := "", camSession := "session"
    encPassword := encrypt sampleSealing sampleLogin.nonce "password", validatedAt := 0, lastAttempt := 0
    stamp := .credentials 0 }

noncomputable def endByRow (m : Manager) (s : Session) : Manager × Except LoginError String :=
  finishLogin sampleSealing Draws.unary (m.wait loginWithout.after) loginWithout "user" (some "password") none
    s.camSession .fallback

theorem step_loginWithout {m : Manager} {s : Session} (recent : recentSession m "user" 0 = some s)
    (young : m.clock + 2 * hour - s.validatedAt * second < sessionStaleTTL)
    (read : decrypt sampleSealing s.encPassword = some "password") :
    step sampleSealing Draws.unary m loginWithout =
      ((endByRow m s).1,(m.wait loginWithout.after).shows none (outcomeOf (endByRow m s).2)) := by
  have row : fallbackRow sampleSealing (m.wait loginWithout.after) loginWithout "user" "password" = some s :=
    fallbackRow_eq_some.mpr ⟨rfl,recent,young,read⟩
  show login sampleSealing Draws.unary (m.wait loginWithout.after) loginWithout "user" "password" none none = _
  exact login_by_row rfl row

noncomputable def loggedIn : Manager := final (step sampleSealing Draws.unary) start [sampleLogin]

theorem step_loggedIn : step sampleSealing Draws.unary loggedIn loginWithout =
    ((endByRow loggedIn sampleRow).1,
      (loggedIn.wait loginWithout.after).shows none (outcomeOf (endByRow loggedIn sampleRow).2)) :=
  step_loginWithout rfl (by decide) (decrypt_encrypt _ _ _)

theorem fallback_recently_after_login :
    (step sampleSealing Draws.unary loggedIn loginWithout).2.outcome = .token (Draws.unary.text 1) ∧
    ∃ o ∈ trace (step sampleSealing Draws.unary) start [sampleLogin], o.accepted = some (.credentials "user" "password") ∧
      o.time ≤ loggedIn.clock + loginWithout.after ∧ loggedIn.clock + loginWithout.after - o.time < sessionStaleTTL := by
  have issued : (step sampleSealing Draws.unary loggedIn loginWithout).2.outcome = .token (Draws.unary.text 1) := by
    rw [step_loggedIn]
    rfl
  refine ⟨issued,fallback_recently sampleSealing Draws.unary [sampleLogin] loginWithout rfl rfl issued ?_⟩
  intro s recent
  cases recent
  exact ⟨0,rfl⟩

/-- Each login without Camerlengo leaves a row that the next one goes by: two hours after
    the first of them, and four after Camerlengo's word, a second one succeeds. -/
theorem fallbacks_chain :
    ¬ ∀ (A : Sealing String String.utf8ByteSize) (D : Draws) (first : List Input) (i : Input) (username password : String)
        (opts : Option LoginOpts) (reply : Option String) (token : String),
      let m := final (step A D) start first
      i.event = .login username password opts reply → authLogin reply = none →
      (step A D m i).2.outcome = .token token →
      ∃ o ∈ trace (step A D) start first, o.accepted = some (.credentials username password) ∧
        o.time ≤ m.clock + i.after ∧ m.clock + i.after - o.time ≤ sessionStaleTTL := by
  intro bounded
  let first := [sampleLogin,loginWithout]
  have again : final (step sampleSealing Draws.unary) start first = (endByRow loggedIn sampleRow).1 := by
    show (step sampleSealing Draws.unary loggedIn loginWithout).1 = _
    rw [step_loggedIn]
  have issued : (step sampleSealing Draws.unary (final (step sampleSealing Draws.unary) start first)
      loginWithout).2.outcome = .token (Draws.unary.text 2) := by
    rw [again,step_loginWithout rfl (by decide) (decrypt_encrypt _ _ _)]
    rfl
  have late : (final (step sampleSealing Draws.unary) start first).clock + loginWithout.after = 4 * hour := by
    rw [again]
    decide
  obtain ⟨o,member,accepted,_,recent⟩ := bounded sampleSealing Draws.unary first loginWithout "user" "password" none none
    _ rfl rfl issued
  rw [late] at recent
  simp only [first,trace_cons,trace_nil,mem_cons,not_mem_nil,or_false] at member
  rcases member with rfl | rfl
  · exact absurd recent (by decide)
  · rw [show (step sampleSealing Draws.unary start sampleLogin).1 = loggedIn from rfl,step_loggedIn] at accepted
    cases accepted

end TunnelCat.Sessions
