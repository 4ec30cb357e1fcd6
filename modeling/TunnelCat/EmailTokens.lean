import TunnelCat.Runs
import TunnelCat.Table

/-!
The tokens that the arbiter mails (`snc-arbiter/db.go`, `signup.go`): who has one can confirm an address or
reset a password. A handler consumes its token with two SQL statements, a `SELECT` and a `DELETE`, and no
transaction around them, so the statements of several handlers may come in any order.
-/
namespace TunnelCat.EmailTokens
open Runs

inductive TokenType
  | confirm
  | reset
deriving DecidableEq

structure EmailToken where
  username : String
  type : TokenType
  expiresAt : Int

variable (tokens : Table String EmailToken) (fails : Bool)

def createEmailToken (token : String) (row : EmailToken) :
    Option (Table String EmailToken) :=
  match tokens.lookup token with
  | some _ => none
  | none => some (tokens.insert token row)

inductive Selected
  | failed
  | missing
  | expired
  | valid (username : String)

def selectToken (now : Int) (token : String) (type : TokenType) :
    Selected :=
  if fails then .failed
  else
    match tokens.lookup token with
    | none => .missing
    | some row =>
      if row.type ≠ type then .missing
      else if now > row.expiresAt then .expired
      else .valid row.username

def deleteToken (token : String) : Table String EmailToken :=
  if fails then tokens else tokens.erase token

/-- The two statements without anything between them: the username, empty when the
    token is not valid, or an error. -/
def consumeEmailToken (selectFails deleteFails : Bool) (now : Int) (token : String)
    (type : TokenType) : Table String EmailToken × Option String :=
  match selectToken tokens selectFails now token type with
  | .failed => (tokens,none)
  | .missing => (tokens,some "")
  | .expired => (deleteToken tokens deleteFails token,some "")
  | .valid username => (deleteToken tokens deleteFails token,if deleteFails then none else some username)

inductive Request
  | confirmEmail (token : String)
  | resetPassword (token password : String)

namespace Request

def token : Request → String
  | .confirmEmail token => token
  | .resetPassword token _ => token

def type : Request → TokenType
  | .confirmEmail _ => .confirm
  | .resetPassword _ _ => .reset

def invalid : Request → Option String
  | .confirmEmail token => if token = "" then some "invalid request" else none
  | .resetPassword token password =>
    if token = "" then some "token required"
    else if password.utf8ByteSize < 8 then some "Password must be at least 8 characters."
    else none

def expired : Request → String
  | .confirmEmail _ => "expired"
  | .resetPassword _ _ => "This reset link has expired or already been used. Please request a new one."

end Request

structure Waiting where
  request : Request
  selected : Selected

structure Arbiter where
  emailTokens : Table String EmailToken
  waiting : Table Nat Waiting

inductive Statement
  | select (id : Nat) (request : Request) (now : Int) (fails : Bool)
  | delete (id : Nat) (fails : Bool)

/-- What a statement leads to: nothing yet, the answer 400, or the reset or
    confirmation that a username allows. -/
inductive Shown
  | quiet
  | refused (id : Nat) (message : String)
  | confirms (token username : String)
  | resets (token username password : String)

def proceed (id : Nat) (request : Request) (username : String) : Shown :=
  if username = "" then .refused id request.expired
  else
    match request with
    | .confirmEmail token => .confirms token username
    | .resetPassword token password => .resets token username password

variable (s : Arbiter)

def select (id : Nat) (request : Request) (now : Int) (fails : Bool) : Arbiter × Shown :=
  if (s.waiting.lookup id).isSome then (s,.quiet)
  else
    match request.invalid with
    | some message => (s,.refused id message)
    | none =>
      match selectToken s.emailTokens fails now request.token request.type with
      | .failed => (s,.refused id request.expired)
      | .missing => (s,.refused id request.expired)
      | selected => ({ s with waiting := s.waiting.insert id ⟨request,selected⟩ },.quiet)

def delete (id : Nat) (fails : Bool) : Arbiter × Shown :=
  match s.waiting.lookup id with
  | none => (s,.quiet)
  | some w =>
    (⟨deleteToken s.emailTokens fails w.request.token,s.waiting.erase id⟩,
      match w.selected with
      | .valid username => if fails then .refused id w.request.expired else proceed id w.request username
      | _ => .refused id w.request.expired)

def step : Statement → Arbiter × Shown
  | .select id request now fails => select s id request now fails
  | .delete id fails => delete s id fails

def Shown.consumes (token : String) : Shown → Bool
  | .confirms t _ => t = token
  | .resets t _ _ => t = token
  | _ => false

def Arbiter.busy (token : String) : Bool := s.waiting.entries.any (fun e => e.2.request.token = token)

/-- Nothing selects the token while a handler is between its two statements for it. -/
def Alone (token : String) (s : Arbiter) : Statement → Prop
  | .select _ request _ _ => request.token = token → s.busy token = false
  | .delete _ _ => True

instance (token : String) (s : Arbiter) (i : Statement) : Decidable (Alone token s i) := by
  cases i <;> unfold Alone <;> infer_instance

variable {token : String} {s}

theorem busy_eq_false :
    s.busy token = false ↔ ∀ id w, s.waiting.lookup id = some w → w.request.token ≠ token := by
  rw [Arbiter.busy,List.any_eq_false]
  constructor
  · intro others id w found
    simpa using others ⟨id,w⟩ (AList.mem_lookup_iff.mp found)
  · intro others e member
    simpa using others e.1 e.2 (AList.mem_lookup_iff.mpr member)

theorem proceed_consumes {id : Nat} {request : Request} {username token : String}
    (consumed : (proceed id request username).consumes token = true) : request.token = token := by
  by_cases empty : username = ""
  · simp [proceed,empty,Shown.consumes] at consumed
  · cases request <;> simpa [proceed,empty,Shown.consumes,Request.token] using consumed

theorem selectToken_missing {tokens : Table String EmailToken} (missing : tokens.lookup token = none)
    (fails : Bool) (now : Int) (type : TokenType) :
    selectToken tokens fails now token type = .failed ∨ selectToken tokens fails now token type = .missing := by
  cases fails <;> simp [selectToken,missing]

theorem select_spec (s : Arbiter) (id : Nat) (request : Request) (now : Int) (fails : Bool) (token : String) :
    (select s id request now fails).1.emailTokens = s.emailTokens ∧
    (select s id request now fails).2.consumes token = false ∧
    ∀ id' w, (select s id request now fails).1.waiting.lookup id' = some w →
      s.waiting.lookup id' = some w ∨
        id' = id ∧ w.request = request ∧ s.emailTokens.lookup request.token ≠ none := by
  unfold select
  by_cases known : (s.waiting.lookup id).isSome
  · rw [if_pos known]
    exact ⟨rfl,rfl,fun _ _ found => .inl found⟩
  rw [if_neg known]
  cases request.invalid with
  | some message => exact ⟨rfl,rfl,fun _ _ found => .inl found⟩
  | none =>
    have joins : ∀ selected, selectToken s.emailTokens fails now request.token request.type = selected →
        selected ≠ .failed → selected ≠ .missing →
        ∀ id' w, (s.waiting.insert id ⟨request,selected⟩).lookup id' = some w → s.waiting.lookup id' = some w ∨
          id' = id ∧ w.request = request ∧ s.emailTokens.lookup request.token ≠ none := by
      grind [selectToken_missing]
    cases result : selectToken s.emailTokens fails now request.token request.type with
    | failed => exact ⟨rfl,rfl,fun _ _ found => .inl found⟩
    | missing => exact ⟨rfl,rfl,fun _ _ found => .inl found⟩
    | expired => exact ⟨rfl,rfl,joins _ result (by simp) (by simp)⟩
    | valid username => exact ⟨rfl,rfl,joins _ result (by simp) (by simp)⟩

theorem delete_consumes {id : Nat} {fails : Bool}
    (consumed : (delete s id fails).2.consumes token = true) :
    (∃ w, s.waiting.lookup id = some w ∧ w.request.token = token) ∧
      (delete s id fails).1.emailTokens.lookup token = none := by
  grind [delete,Shown.consumes,proceed_consumes,deleteToken]

theorem delete_waiting {id id' : Nat} {fails : Bool} {w : Waiting}
    (found : (delete s id fails).1.waiting.lookup id' = some w) : id' ≠ id ∧ s.waiting.lookup id' = some w := by
  grind [delete]

theorem delete_missing (missing : s.emailTokens.lookup token = none) (id : Nat)
    (fails : Bool) : (delete s id fails).1.emailTokens.lookup token = none := by
  grind [delete,deleteToken]

/-- At most one handler waits for the token, and once it has been consumed it is gone
    and nothing waits for it. -/
structure Single (token : String) (past : List Shown) (s : Arbiter) : Prop where
  one : ∀ a b w w', s.waiting.lookup a = some w → s.waiting.lookup b = some w' →
    w.request.token = token → w'.request.token = token → a = b
  spent : past.countP (Shown.consumes token) = 0 ∨ past.countP (Shown.consumes token) = 1 ∧
    s.emailTokens.lookup token = none ∧ ∀ id w, s.waiting.lookup id = some w → w.request.token ≠ token

theorem single_select {past : List Shown} (single : Single token past s) (id : Nat)
    (request : Request) (now : Int) (fails : Bool) (alone : request.token = token → s.busy token = false) :
    Single token (past ++ [(select s id request now fails).2]) (select s id request now fails).1 := by
  obtain ⟨tokens,quiet,waits⟩ := select_spec s id request now fails token
  have count : (past ++ [(select s id request now fails).2]).countP (Shown.consumes token) =
      past.countP (Shown.consumes token) := by simp [quiet]
  constructor
  · intro a b w w' foundA foundB ownA ownB
    rcases waits a w foundA with oldA | ⟨rfl,sameA,_⟩ <;> rcases waits b w' foundB with oldB | ⟨rfl,sameB,_⟩
    · exact single.one a b w w' oldA oldB ownA ownB
    · exact absurd ownA (busy_eq_false.mp (alone (sameB ▸ ownB)) a w oldA)
    · exact absurd ownB (busy_eq_false.mp (alone (sameA ▸ ownA)) b w' oldB)
    · rfl
  · grind [single.spent]

theorem single_delete {past : List Shown} (single : Single token past s) (id : Nat)
    (fails : Bool) : Single token (past ++ [(delete s id fails).2]) (delete s id fails).1 := by
  constructor
  · intro a b w w' foundA foundB
    exact single.one a b w w' (delete_waiting foundA).2 (delete_waiting foundB).2
  · by_cases consumed : (delete s id fails).2.consumes token = true
    · obtain ⟨⟨w,found,own⟩,gone⟩ := delete_consumes consumed
      have before : past.countP (Shown.consumes token) = 0 := by
        grind [single.spent]
      refine .inr ⟨by simp [before,consumed],gone,fun id' w' found' own' => ?_⟩
      -- the handler that waited for the token was this one
      obtain ⟨other,old⟩ := delete_waiting found'
      exact other (single.one id' id w' w old found own' own)
    grind [delete,single.spent,delete_missing]

/-- However the statements of the handlers are interleaved, a token lets one of them
    reset a password or confirm an address, as long as none selects it between the two
    statements of another. -/
theorem consumed_once (tokens : Table String EmailToken) (token : String) (statements : List Statement)
    (alone : Along step (Alone token) ⟨tokens,∅⟩ statements) :
    (trace step ⟨tokens,∅⟩ statements).countP (Shown.consumes token) ≤ 1 := by
  have start : Single token [] ⟨tokens,∅⟩ := ⟨fun _ _ _ _ found => (by cases found),.inl rfl⟩
  have kept : ∀ past s i, Alone token s i → Single token past s → Single token (past ++ [(step s i).2]) (step s i).1 := by
    intro past s i alone single
    cases i with
    | select id request now fails => exact single_select single id request now fails alone
    | delete id fails => exact single_delete single id fails
  have single := invariant_along kept statements [] _ alone start
  rw [List.nil_append] at single
  rcases single.spent with none | ⟨once,_⟩ <;> omega

def resetLink : Table String EmailToken := (∅ : Table String EmailToken).insert "f00d" ⟨"cat@navlink.net",.reset,3600⟩

/-- One click after the other: the second one finds no token. -/
theorem consumed_once_in_turn :
    (trace step ⟨resetLink,∅⟩ [.select 1 (.resetPassword "f00d" "first one") 60 false,.delete 1 false,
      .select 2 (.resetPassword "f00d" "second one") 61 false]).countP (Shown.consumes "f00d") ≤ 1 :=
  consumed_once resetLink "f00d" _ (by decide)

/-- Two handlers that have both selected the token before either deletes it both reset
    the password. -/
theorem consumed_twice : ¬ ∀ (tokens : Table String EmailToken) (token : String) (statements : List Statement),
    (trace step ⟨tokens,∅⟩ statements).countP (Shown.consumes token) ≤ 1 := by
  intro once
  have bound := once resetLink "f00d" [.select 1 (.resetPassword "f00d" "first one") 60 false,
    .select 2 (.resetPassword "f00d" "second one") 60 false,.delete 1 false,.delete 2 false]
  revert bound
  decide

end TunnelCat.EmailTokens
