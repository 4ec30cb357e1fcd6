import TunnelCat.EmailTokens

/-!
Signing up at the arbiter (`snc-arbiter/get_key.go`, `signup.go`). For ten minutes anyone may replace the
password of an address that is not confirmed; a confirmation in that time generates a new one. Each account
carries in `origin` whose password it has.
-/
namespace TunnelCat.Accounts
open Runs EmailTokens

inductive Caller
  | owner
  | attacker
deriving DecidableEq

inductive Origin
  | throwaway
  | submitted (caller : Caller)
  | generated
deriving DecidableEq

structure Account where
  password : String
  origin : Origin
deriving DecidableEq

structure Confirmation where
  confirmed : Bool
  createdAt : Int

structure Arbiter where
  clock : Int
  accounts : Table String Account
  confirmations : Table String Confirmation
  emailTokens : Table String EmailToken

/-- An answer of Camerlengo: one with a status, one without (`{}`, as it gives while
    it starts), or none. In the last two cases the command may have been carried out. -/
inductive Reply
  | ok
  | error
  | blank (took : Bool)
  | lost (took : Bool)
deriving DecidableEq

def Reply.took : Reply → Bool
  | .ok => true
  | .error => false
  | .blank took => took
  | .lost took => took

/-- The calls to Camerlengo look for the status `error`; an answer without a status is
    none. -/
def Reply.accepted : Reply → Bool
  | .ok => true
  | .blank _ => true
  | _ => false

inductive Call
  | isUserConfirmationPending
  | resetPendingConfirmation
  | genEmailToken
  | createEmailToken
  | sendEmail
  | selectToken
  | deleteToken
  | pendingSignupWithin
  | setUserConfirmed
  | issueKey

/-- The requests. A start comes with the result of its captcha, a request for a key
    with the user of its session and whether it is within the limits. -/
inductive Event
  | start (email : String) (captcha : Bool)
  | setPassword (email password : String)
  | confirmEmail (token : String)
  | keyFree (session : Option String) (allowed : Bool)

/-- A request with what surrounds it: the seconds since the last one, who sends it,
    its language, the calls that fail, Camerlengo's answers, and the random token and
    password. -/
structure Input where
  after : Nat
  caller : Caller
  russian : Bool
  fails : Call → Bool
  addUser : Reply
  forceChangePassword : Reply
  token : String
  password : String
  event : Event

inductive Mail
  | confirm (address token : String)
  | key (address password : String)

inductive Answer
  | error (status : Nat) (message : String)
  | started (known pending : Bool)
  | done
  | key (username : String)
deriving DecidableEq

structure Shown where
  answer : Answer
  mails : List Mail

def setPasswordWindow : Int := 600

def isEmailLike (s : String) : Bool := '@' ∈ s.toList && '.' ∈ s.toList

def tr (russian : Bool) (en ru : String) : String := if russian then ru else en

variable (s : Arbiter) (i : Input) (email username : String)

def addUser : Arbiter × Bool :=
  match s.accounts.lookup email with
  | some _ => (s,i.addUser.accepted && i.addUser ≠ .ok)
  | none =>
    (if i.addUser.took then { s with accounts := s.accounts.insert email ⟨i.password,.throwaway⟩ } else s,
      i.addUser.accepted)

def forceChangePassword (account : Account) : Arbiter × Bool :=
  match s.accounts.lookup email with
  | none => (s,i.forceChangePassword.accepted && i.forceChangePassword ≠ .ok)
  | some _ =>
    (if i.forceChangePassword.took then { s with accounts := s.accounts.insert email account } else s,
      i.forceChangePassword.accepted)

def isUserConfirmationPending : Bool :=
  ((s.confirmations.lookup username).map (fun c => !c.confirmed)).getD false

def resetPendingConfirmation : Arbiter :=
  if i.fails .resetPendingConfirmation then s
  else { s with confirmations := s.confirmations.insert username ⟨false,s.clock⟩ }

def setUserConfirmed : Arbiter :=
  if i.fails .setUserConfirmed then s
  else
    let createdAt := ((s.confirmations.lookup username).map Confirmation.createdAt).getD s.clock
    { s with confirmations := s.confirmations.insert username ⟨true,createdAt⟩ }

def pendingSignupWithin (window : Int) : Bool :=
  match s.confirmations.lookup username with
  | none => false
  | some c => !c.confirmed && s.clock - c.createdAt ≤ window

def sendConfirmEmail : Arbiter × Option Mail :=
  if i.fails .genEmailToken || i.fails .createEmailToken then (s,none)
  else
    match createEmailToken s.emailTokens i.token ⟨email,.confirm,s.clock + 24 * 3600⟩ with
    | none => (s,none)
    | some tokens => ({ s with emailTokens := tokens },if i.fails .sendEmail then none else some (.confirm email i.token))

section
-- `strings.ToLower(strings.TrimSpace(email))`

variable (normalize : String → String)

variable (i : Input)

def apiAccountStart (s : Arbiter) (i : Input) (raw : String) (captcha : Bool) : Arbiter × Shown :=
  let email := normalize raw
  if !captcha then (s,⟨.error 400 "captcha",[]⟩)
  else if !isEmailLike email then (s,⟨.error 400 "invalid email",[]⟩)
  else
    match addUser s i email with
    | (s, false) =>
      (s,⟨.started true (!i.fails .isUserConfirmationPending && isUserConfirmationPending s email),[]⟩)
    | (s, true) =>
      match sendConfirmEmail (resetPendingConfirmation s i email) i email with
      | (s, none) =>
        (s,⟨.error 502 (tr i.russian
          "We could not send a confirmation email to this address. Please check it's correct and try again."
          "Не удалось отправить письмо с подтверждением на этот адрес. Проверьте правильность адреса и попробуйте ещё раз."),
          []⟩)
      | (s, some mail) => (s,⟨.started false true,[mail]⟩)

def apiAccountSetPassword (s : Arbiter) (i : Input) (raw password : String) : Arbiter × Shown :=
  let email := normalize raw
  if !isEmailLike email then (s,⟨.error 400 "invalid email",[]⟩)
  else if password.utf8ByteSize < 8 then (s,⟨.error 400 "Password must be at least 8 characters.",[]⟩)
  else if i.fails .pendingSignupWithin || !pendingSignupWithin s email setPasswordWindow then
    (s,⟨.error 403 "The password can only be set right after sign-up. Use \"Forgot password\" to reset it.",[]⟩)
  else
    match forceChangePassword s i email ⟨password,.submitted i.caller⟩ with
    | (s, false) => (s,⟨.error 500 "Failed to set password. Please try again.",[]⟩)
    | (s, true) => (s,⟨.done,[]⟩)

def issueFreeKey (username password : String) : Shown :=
  if i.fails .issueKey then ⟨.error 500 "key generation failed",[]⟩ else ⟨.key username,[.key username password]⟩

def generatePassword (s : Arbiter) (i : Input) (username : String) : Arbiter × String :=
  if i.fails .pendingSignupWithin || !pendingSignupWithin s username setPasswordWindow then (s,"")
  else
    match forceChangePassword s i username ⟨i.password,.generated⟩ with
    | (s, true) => (s,i.password)
    | (s, false) => (s,"")

def apiConfirmEmail (s : Arbiter) (i : Input) (token : String) : Arbiter × Shown :=
  if token = "" then (s,⟨.error 400 "invalid request",[]⟩)
  else
    match consumeEmailToken s.emailTokens (i.fails .selectToken) (i.fails .deleteToken) s.clock token .confirm with
    | (tokens, none) => ({ s with emailTokens := tokens },⟨.error 400 "expired",[]⟩)
    | (tokens, some username) =>
      let s := { s with emailTokens := tokens }
      if username = "" then (s,⟨.error 400 "expired",[]⟩)
      else
        let generated := generatePassword s i username
        (setUserConfirmed generated.1 i username,issueFreeKey i username generated.2)

def apiKeyFree (session : Option String) (allowed : Bool) : Shown :=
  match session with
  | none => ⟨.error 401 "not logged in",[]⟩
  | some username =>
    if !allowed then ⟨.error 429 "Too many key requests. Please wait before requesting another.",[]⟩
    else issueFreeKey i username ""

def act (s : Arbiter) (i : Input) : Arbiter × Shown :=
  match i.event with
  | .start email captcha => apiAccountStart normalize s i email captcha
  | .setPassword email password => apiAccountSetPassword normalize s i email password
  | .confirmEmail token => apiConfirmEmail s i token
  | .keyFree session allowed => (s,apiKeyFree i session allowed)

def Arbiter.wait (s : Arbiter) (after : Nat) : Arbiter := { s with clock := s.clock + after }

def step (s : Arbiter) (i : Input) : Arbiter × Shown := act normalize (s.wait i.after) i

end

def start : Arbiter := ⟨0,∅,∅,∅⟩

theorem sendConfirmEmail_keeps :
    (sendConfirmEmail s i email).1.accounts = s.accounts ∧
      (sendConfirmEmail s i email).1.confirmations = s.confirmations := by
  grind [sendConfirmEmail]

variable {s} {password : String} {email}

theorem addUser_spec {a : Account} (found : s.accounts.lookup email = some a)
    (i : Input) (other : String) :
    (addUser s i other).1.accounts.lookup email = some a ∧
      (addUser s i other).1.confirmations = s.confirmations ∧
      (other = email → (addUser s i other).2 = true → ∃ took, i.addUser = .blank took) := by
  unfold addUser
  cases known : s.accounts.lookup other with
  | some b =>
    refine ⟨found,rfl,fun _ accepted => ?_⟩
    cases reply : i.addUser <;> simp [reply,Reply.accepted] at accepted ⊢
  | none =>
    grind

theorem generatePassword_spec (s : Arbiter) (i : Input) (username : String) :
    (generatePassword s i username).1.confirmations = s.confirmations ∧
      ∀ other, (other = username → pendingSignupWithin s username setPasswordWindow = false) →
        (generatePassword s i username).1.accounts.lookup other = s.accounts.lookup other := by
  grind [generatePassword,forceChangePassword]

def Settled (email password : String) (s : Arbiter) : Prop :=
  s.accounts.lookup email = some ⟨password,.generated⟩ ∧ ∃ t, s.confirmations.lookup email = some ⟨true,t⟩

theorem settled_closed (settled : Settled email password s) (window : Int) :
    pendingSignupWithin s email window = false := by
  obtain ⟨_,t,confirmed⟩ := settled
  simp [pendingSignupWithin,confirmed]

theorem settled_confirmed {username : String} (settled : Settled email password s)
    (i : Input) : Settled email password (setUserConfirmed s i username) := by
  obtain ⟨account,t,confirmed⟩ := settled
  unfold setUserConfirmed
  cases i.fails .setUserConfirmed with
  | true => exact ⟨account,t,confirmed⟩
  | false =>
    refine ⟨account,?_⟩
    grind

section
variable {normalize : String → String}

/-- No start of the account is answered without a status. -/
def Answered (normalize : String → String) (email : String) (_ : Arbiter) (i : Input) : Prop :=
  match i.event with
  | .start raw _ => normalize raw = email → ∀ took, i.addUser ≠ .blank took
  | _ => True

variable {s : Arbiter}

theorem settled_start {email password raw : String} (settled : Settled email password s) (i : Input)
    (captcha : Bool) (answered : normalize raw = email → ∀ took, i.addUser ≠ .blank took) :
    Settled email password (apiAccountStart normalize s i raw captcha).1 := by
  obtain ⟨account,t,confirmed⟩ := settled
  obtain ⟨kept,confirmations,blank⟩ := addUser_spec account i (normalize raw)
  unfold apiAccountStart
  dsimp only
  split_ifs with refused unlike
  · exact ⟨account,t,confirmed⟩
  · exact ⟨account,t,confirmed⟩
  cases added : addUser s i (normalize raw) with
  | mk s' accepted =>
    grind [Settled,resetPendingConfirmation,sendConfirmEmail_keeps]

variable {email password : String}

variable (settled : Settled email password s)
include settled

theorem settled_setPassword (i : Input)
    (raw chosen : String) : Settled email password (apiAccountSetPassword normalize s i raw chosen).1 := by
  grind [apiAccountSetPassword,settled_closed,Settled,forceChangePassword]

theorem settled_generate (i : Input)
    (username : String) : Settled email password (generatePassword s i username).1 := by
  obtain ⟨confirmations,accounts⟩ := generatePassword_spec s i username
  have closed : email = username → pendingSignupWithin s username setPasswordWindow = false := by
    rintro rfl
    exact settled_closed settled _
  obtain ⟨account,t,confirmed⟩ := settled
  exact ⟨(accounts email closed).trans account,t,by rw [confirmations]; exact confirmed⟩

theorem settled_confirm (i : Input)
    (token : String) : Settled email password (apiConfirmEmail s i token).1 := by
  unfold apiConfirmEmail
  grind [Settled,settled_confirmed,settled_generate]

omit settled

variable {i : Input}

theorem settled_step (answered : Answered normalize email s i)
    (settled : Settled email password s) : Settled email password (step normalize s i).1 := by
  have waited : Settled email password (s.wait i.after) := settled
  grind [step,act,Answered,settled_start,settled_setPassword,settled_confirm]

/-- A confirmation that succeeds for an account, within the window of its start, whose
    new password Camerlengo takes and whose row is written. -/
structure Confirms (normalize : String → String) (s : Arbiter) (i : Input) (token email : String) : Prop where
  event : i.event = .confirmEmail token
  succeeds : (step normalize s i).2.answer = .key email
  known : (s.accounts.lookup email).isSome
  fresh : pendingSignupWithin (s.wait i.after) email setPasswordWindow = true
  read : i.fails .pendingSignupWithin = false
  changed : i.forceChangePassword = .ok
  written : i.fails .setUserConfirmed = false

theorem issueFreeKey_key {username password email : String}
    (issued : (issueFreeKey i username password).answer = .key email) :
    username = email ∧ (issueFreeKey i username password).mails = [.key username password] := by
  grind [issueFreeKey]

theorem confirms_settles {token email : String} (confirms : Confirms normalize s i token email) :
    Settled email i.password (step normalize s i).1 ∧ (step normalize s i).2.mails = [.key email i.password] := by
  obtain ⟨event,succeeds,known,fresh,read,changed,written⟩ := confirms
  simp only [step,act,event,apiConfirmEmail] at succeeds ⊢
  by_cases empty : token = ""
  · simp [empty] at succeeds
  rw [if_neg empty] at succeeds ⊢
  cases consumed : consumeEmailToken (s.wait i.after).emailTokens (i.fails .selectToken) (i.fails .deleteToken)
      (s.wait i.after).clock token .confirm with
  | mk tokens result =>
    simp only [consumed] at succeeds ⊢
    cases result with
    | none => simp at succeeds
    | some username =>
      dsimp only at succeeds ⊢
      by_cases nobody : username = ""
      · simp [nobody] at succeeds
      rw [if_neg nobody] at succeeds ⊢
      obtain ⟨rfl,mails⟩ := issueFreeKey_key succeeds
      obtain ⟨a,account⟩ := Option.isSome_iff_exists.mp known
      have generated : generatePassword { s.wait i.after with emailTokens := tokens } i username =
          ({ s.wait i.after with
              emailTokens := tokens
              accounts := s.accounts.insert username ⟨i.password,.generated⟩ },i.password) := by
        have open_ : pendingSignupWithin { s.wait i.after with emailTokens := tokens } username setPasswordWindow = true :=
          fresh
        have there : (s.wait i.after).accounts.lookup username = some a := account
        simp only [generatePassword,read,open_,forceChangePassword,there,changed]
        rfl
      rw [generated] at mails ⊢
      refine ⟨⟨?_,?_⟩,mails⟩
      · simp [setUserConfirmed,written]
      · exact ⟨_,by simp only [setUserConfirmed,written]; exact AList.lookup_insert _⟩

/-- Whatever was requested before, once the address is confirmed within ten minutes of
    the start the password of the account is the one that this confirmation generated
    and mailed, and it stays so, unless Camerlengo answers a later start of the account
    without a status. -/
theorem confirmed_password_kept (normalize : String → String) (before after : List Input) (i : Input)
    (token email : String) (confirms : Confirms normalize (final (step normalize) start before) i token email)
    (answered : Along (step normalize) (Answered normalize email)
      (step normalize (final (step normalize) start before) i).1 after) :
    (step normalize (final (step normalize) start before) i).2.mails = [.key email i.password] ∧
      (final (step normalize) start (before ++ i :: after)).accounts.lookup email = some ⟨i.password,.generated⟩ := by
  obtain ⟨settled,mails⟩ := confirms_settles confirms
  have kept := state_along (fun _ _ answered settled => settled_step answered settled) answered settled
  refine ⟨mails,?_⟩
  rw [final_append,final_cons]
  exact kept.1

end

def request (after : Nat) (caller : Caller) (random : String) (event : Event) : Input :=
  ⟨after,caller,false,fun _ => false,.ok,.ok,random,random,event⟩

def takenAddress : List Input :=
  [request 0 .attacker "cafe" (.start "cat@navlink.net" true),
    request 60 .attacker "" (.setPassword "cat@navlink.net" "mine, all mine")]

/-- The owner of the address follows the link after five minutes; the attacker cannot set
    a password again. -/
theorem confirmed_password_kept_in_time :
    (final (step id) start (takenAddress ++ request 240 .owner "Xq7mB2" (.confirmEmail "cafe") ::
      [request 1 .attacker "" (.setPassword "cat@navlink.net" "mine once more")])).accounts.lookup "cat@navlink.net" =
      some ⟨"Xq7mB2",.generated⟩ :=
  (confirmed_password_kept id takenAddress
    [request 1 .attacker "" (.setPassword "cat@navlink.net" "mine once more")]
    (request 240 .owner "Xq7mB2" (.confirmEmail "cafe")) "cafe" "cat@navlink.net"
    ⟨rfl,by decide +kernel,by decide +kernel,by decide +kernel,rfl,rfl,rfl⟩ ⟨trivial,trivial⟩).2

/-- The owner follows the link after eleven minutes, and the password stays the
    attacker's. -/
theorem attackers_password : ¬ ∀ (normalize : String → String) (before after : List Input) (i : Input)
    (token email : String) (a : Account), i.event = .confirmEmail token → i.caller = .owner →
    (step normalize (final (step normalize) start before) i).2.answer = .key email →
    (final (step normalize) start (before ++ i :: after)).accounts.lookup email = some a →
    a.origin ≠ .submitted .attacker := by
  intro others
  exact others id takenAddress [] (request 600 .owner "Xq7mB2" (.confirmEmail "cafe")) "cafe" "cat@navlink.net"
    ⟨"mine, all mine",.submitted .attacker⟩ rfl rfl (by decide +kernel) (by decide +kernel) rfl

end TunnelCat.Accounts
