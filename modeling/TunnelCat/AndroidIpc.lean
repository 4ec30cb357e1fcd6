import TunnelCat.HostPort
import TunnelCat.Runs

/-!
The two clients that ask the Android app over a Unix socket (`android-core/uid_linux.go`,
`android-core/protect_linux.go`): one round trip at a time, and a second attempt on any error. The second
attempt gives up without closing its connection, and the next call reads what the app then sends. What
`strings.TrimSpace` cuts off an answer does not matter, so it is any function.
-/
namespace TunnelCat.AndroidIpc
open HostPort List
open NetIP (Addr)
open Runs
variable {ρ : Type}

/-- What the two protocols differ in: the byte at which an answer ends, and whether a request
    can be cut off while it is written. -/
structure Protocol where
  ends : UInt8 → Bool
  tears : Bool

structure Line (ρ : Type) where
  call : Nat
  request : ρ

/-- A byte from the app, with the request that it answers, none for a line put together from
    two requests, and its place in that answer. The code sees the byte only. -/
structure Answer (ρ : Type) where
  byte : UInt8
  answers : Option (Line ρ)
  place : Nat

/-- A connection. The app reads one request after the other and answers each with one answer,
    in that order and as late as it likes. `torn` says that the last write broke off inside
    its line, `place` how much of the present answer was sent. -/
structure Conn (ρ : Type) where
  requests : List (Option (Line ρ)) := []
  torn : Bool := false
  answered : Nat := 0
  place : Nat := 0
  unread : List (Answer ρ) := []
  closed : Bool := false

inductive Written
  | done
  | failed (part : Bool)
deriving DecidableEq

variable (p : Protocol) (line : Line ρ)

def Conn.write (w : Written) (line : Line ρ) (conn : Conn ρ) : Conn ρ × Bool :=
  if conn.closed then (conn,false)
  else
    match w with
    | .done =>
      ({ conn with requests := conn.requests ++ [if conn.torn then none else some line], torn := false },true)
    | .failed part => ({ conn with torn := conn.torn || (part && p.tears) },false)

def Conn.hear (b : UInt8) (conn : Conn ρ) : Conn ρ :=
  match conn.requests[conn.answered]? with
  | none => conn
  | some line =>
    { conn with
      unread := conn.unread ++ [⟨b,line,conn.place⟩]
      answered := if p.ends b then conn.answered + 1 else conn.answered
      place := if p.ends b then 0 else conn.place + 1 }

def firstAnswer (p : Protocol) : List (Answer ρ) → Option (List (Answer ρ) × List (Answer ρ))
  | [] => none
  | a :: rest =>
    if p.ends a.byte then some ([a],rest)
    else (firstAnswer p rest).map (fun found => (a :: found.1,found.2))

structure Pending (ρ : Type) where
  line : Line ρ
  allowRetry : Bool

structure Client (ρ : Type) where
  conn : Option (Conn ρ) := none
  pending : Option (Pending ρ) := none
  calls : Nat := 0

inductive Result (ρ : Type)
  | noSocket
  | failed
  | replied (answer : List (Answer ρ))

structure Returned (ρ : Type) where
  line : Line ρ
  result : Result ρ

structure Outcome where
  dials : Bool
  write : Written
  redials : Bool
  rewrite : Written

variable (c : Client ρ)

def again (line : Line ρ) (redials : Bool) (rewrite : Written) :
    Client ρ × Option (Returned ρ) :=
  if redials then
    let (conn, sent) := Conn.write p rewrite line {}
    if sent then ({ c with conn := some conn, pending := some ⟨line,false⟩ },none)
    else ({ c with conn := some conn, pending := none },some ⟨line,.failed⟩)
  else ({ c with conn := none, pending := none },some ⟨line,.failed⟩)

def begin (line : Line ρ) (o : Outcome) : Client ρ × Option (Returned ρ) :=
  match c.conn.or (if o.dials then some {} else none) with
  | none => (c,some ⟨line,.noSocket⟩)
  | some old =>
    let (conn, sent) := Conn.write p o.write line old
    if sent then ({ c with conn := some conn, pending := some ⟨line,true⟩ },none)
    else again p c line o.redials o.rewrite

/-- What happens to a client: `Connect`, a call, a byte from the app, a close of the connection
    by the watchdog or by the app, a read that finds a whole answer, and one that fails. A
    failed read may have taken some bytes. -/
inductive Input (ρ : Type)
  | connect
  | call (request : ρ) (o : Outcome)
  | hears (b : UInt8)
  | closes
  | reads
  | readFails (taken : Nat) (redials : Bool) (rewrite : Written)

def step : Input ρ → Client ρ × Option (Returned ρ)
  | .connect => (if c.pending.isNone then { c with conn := some {} } else c,none)
  | .call request o =>
    if c.pending.isNone then begin p { c with calls := c.calls + 1 } ⟨c.calls,request⟩ o else (c,none)
  | .hears b => ({ c with conn := c.conn.map (Conn.hear p b) },none)
  | .closes => ({ c with conn := c.conn.map (fun conn => { conn with closed := true }) },none)
  | .reads =>
    match c.pending, c.conn with
    | some q, some conn =>
      match firstAnswer p conn.unread with
      | some (answer, rest) =>
        ({ c with conn := some { conn with unread := rest }, pending := none },some ⟨q.line,.replied answer⟩)
      | none => (c,none)
    | _, _ => (c,none)
  | .readFails taken redials rewrite =>
    match c.pending with
    | none => (c,none)
    | some q =>
      if q.allowRetry then again p c q.line redials rewrite
      else
        ({ c with conn := c.conn.map (fun conn => { conn with unread := conn.unread.drop taken }), pending := none },
          some ⟨q.line,.failed⟩)

/-- The second attempt of a call does not give up on an open connection after it has written
    a request or a part of one. -/
def LeavesNothing : Input ρ → Prop
  | .call _ o => ¬ (p.tears ∧ o.rewrite = .failed true)
  | .readFails _ _ rewrite =>
    match c.pending with
    | none => True
    | some q => if q.allowRetry then ¬ (p.tears ∧ rewrite = .failed true) else ∀ conn ∈ c.conn, conn.closed
  | _ => True

instance LeavesNothing.decidable (p : Protocol) (c : Client ρ) : ∀ i, Decidable (LeavesNothing p c i)
  | .call _ o => inferInstanceAs (Decidable (¬ (p.tears ∧ o.rewrite = .failed true)))
  | .readFails taken redials rewrite => by
    unfold LeavesNothing
    cases c.pending <;> infer_instance
  | .connect | .hears _ | .closes | .reads => isTrue trivial

def From (answer : List (Answer ρ)) : Prop :=
  (∀ a ∈ answer, a.answers = some line) ∧ answer.map Answer.place = List.range answer.length

def AnswerTo (answer : List (Answer ρ)) : Prop :=
  From line answer ∧ ∃ body last, answer = body ++ [last] ∧ p.ends last.byte = true ∧ ∀ a ∈ body, p.ends a.byte = false

variable {line} {answer : List (Answer ρ)} {b : UInt8} {c}

theorem from_concat (sofar : From line answer) (b : UInt8) :
    From line (answer ++ [⟨b,some line,answer.length⟩]) := by
  obtain ⟨tags,places⟩ := sofar
  constructor
  · grind
  · simp [places,range_succ]

variable {p}

theorem firstAnswer_none {unread : List (Answer ρ)} (inner : ∀ a ∈ unread, p.ends a.byte = false) :
    firstAnswer p unread = none := by
  induction unread with
  | nil => rfl
  | cons a rest ih =>
    grind [firstAnswer]

theorem firstAnswer_whole {last : Answer ρ} (ends : p.ends last.byte = true) {body : List (Answer ρ)}
    (inner : ∀ a ∈ body, p.ends a.byte = false) : firstAnswer p (body ++ [last]) = some (body ++ [last],[]) := by
  induction body with
  | nil => simp [firstAnswer,ends]
  | cons a rest ih =>
    grind [firstAnswer]

structure Quiet (conn : Conn ρ) : Prop where
  whole : conn.torn = false
  answered : conn.answered = conn.requests.length
  place : conn.place = 0
  read : conn.unread = []

structure Awaits (p : Protocol) (line : Line ρ) (conn : Conn ρ) : Prop where
  whole : conn.torn = false
  last : ∃ earlier, conn.requests = earlier ++ [some line] ∧
    ((conn.answered = earlier.length ∧ conn.place = conn.unread.length ∧ From line conn.unread ∧
        ∀ a ∈ conn.unread, p.ends a.byte = false) ∨
      (conn.answered = conn.requests.length ∧ conn.place = 0 ∧ AnswerTo p line conn.unread))

theorem quiet_fresh : Quiet ({} : Conn ρ) := ⟨rfl,rfl,rfl,rfl⟩

theorem write_sent {w : Written} {conn next : Conn ρ}
    (quiet : conn.closed = true ∨ Quiet conn) (sent : Conn.write p w line conn = (next,true)) : Awaits p line next := by
  unfold Conn.write at sent
  by_cases closed : conn.closed = true
  · simp [closed] at sent
  · obtain ⟨whole,answered,place,read⟩ := quiet.resolve_left closed
    cases w with
    | failed part => simp [closed] at sent
    | done =>
      simp only [closed,Bool.false_eq_true,if_false,whole,Prod.mk.injEq,and_true] at sent
      subst sent
      exact ⟨rfl,conn.requests,rfl,.inl ⟨answered,by simp [place,read],by simp [read,From],by simp [read]⟩⟩

theorem write_failed {w : Written} {conn next : Conn ρ} (quiet : Quiet conn)
    (nothing : ¬ (p.tears ∧ w = .failed true)) (failed : Conn.write p w line conn = (next,false)) : Quiet next := by
  unfold Conn.write at failed
  by_cases closed : conn.closed = true
  · grind
  · cases w with
    | done => simp [closed] at failed
    | failed part =>
      simp only [closed,Bool.false_eq_true,if_false,Prod.mk.injEq,and_true] at failed
      subst failed
      have none : (part && p.tears) = false := by
        cases part <;> simp_all
      exact ⟨by simp [quiet.whole,none],quiet.answered,quiet.place,quiet.read⟩

variable {conn : Conn ρ}

theorem hear_quiet (quiet : Quiet conn) : Quiet (conn.hear p b) := by
  grind [quiet.answered,Conn.hear]

theorem hear_closed (conn : Conn ρ) : (conn.hear p b).closed = conn.closed := by
  unfold Conn.hear
  cases conn.requests[conn.answered]? <;> rfl

theorem hear_awaits (awaits : Awaits p line conn) :
    Awaits p line (conn.hear p b) := by
  obtain ⟨whole,earlier,requests,part | done⟩ := awaits
  · obtain ⟨answered,place,sofar,inner⟩ := part
    have next : conn.requests[conn.answered]? = some (some line) := by simp [requests,answered]
    have longer := from_concat sofar b
    rw [← place] at longer
    simp only [Conn.hear,next]
    refine ⟨whole,earlier,requests,?_⟩
    by_cases ends : p.ends b = true
    · refine .inr ⟨by simp [ends,requests,answered],by simp [ends],longer,_,_,rfl,ends,inner⟩
    · refine .inl ⟨by simp [ends,answered],by simp [ends,place],longer,?_⟩
      grind
  · have none : conn.requests[conn.answered]? = none := by simp [done.1]
    simp only [Conn.hear,none]
    exact ⟨whole,earlier,requests,.inr done⟩

theorem read_awaits {rest : List (Answer ρ)}
    (awaits : Awaits p line conn) (found : firstAnswer p conn.unread = some (answer,rest)) :
    AnswerTo p line answer ∧ Quiet { conn with unread := rest } := by
  obtain ⟨whole,earlier,requests,part | done⟩ := awaits
  · simp [firstAnswer_none part.2.2.2] at found
  · obtain ⟨answered,place,sofar,body,last,split,ends,inner⟩ := done
    rw [split,firstAnswer_whole ends inner] at found
    obtain ⟨rfl,rfl⟩ := found
    exact ⟨⟨split ▸ sofar,body,last,rfl,ends,inner⟩,whole,answered,place,rfl⟩

/-- The answer that a call waits for is the next on its connection, and between the calls
    nothing is left on an open one. -/
structure Matched (p : Protocol) (c : Client ρ) : Prop where
  idle : c.pending = none → ∀ conn, c.conn = some conn → conn.closed = true ∨ Quiet conn
  busy : ∀ q, c.pending = some q → ∀ conn, c.conn = some conn → Awaits p q.line conn

def Good (p : Protocol) (o : Option (Returned ρ)) : Prop :=
  ∀ r, o = some r → ∀ answer, r.result = .replied answer → AnswerTo p r.line answer

theorem matched_idle (idle : c.pending = none)
    (quiet : ∀ conn, c.conn = some conn → conn.closed = true ∨ Quiet conn) : Matched p c :=
  ⟨fun _ => quiet,fun q busy => by simp [idle] at busy⟩

theorem matched_busy {q : Pending ρ} (busy : c.pending = some q)
    (current : c.conn = some conn) (awaits : Awaits p q.line conn) : Matched p c := by
  refine ⟨fun idle => by simp [idle] at busy,?_⟩
  grind

theorem good_none : Good p (none : Option (Returned ρ)) := fun r shown => by cases shown

theorem good_failed (line : Line ρ) : Good p (some ⟨line,.failed⟩) := by
  rintro r ⟨⟩ answer replied
  cases replied

theorem again_kept (c : Client ρ) (line : Line ρ) (redials : Bool) {rewrite : Written}
    (nothing : ¬ (p.tears ∧ rewrite = .failed true)) :
    Matched p (again p c line redials rewrite).1 ∧ Good p (again p c line redials rewrite).2 := by
  unfold again
  cases redials with
  | false => grind [matched_idle,good_failed]
  | true =>
    rcases written : Conn.write p rewrite line {} with ⟨conn,sent⟩
    cases sent with
    | true => exact ⟨matched_busy rfl rfl (write_sent (.inr quiet_fresh) written),good_none⟩
    | false =>
      grind [matched_idle,good_failed,write_failed,quiet_fresh]

theorem begin_kept (idle : c.pending = none) (matched : Matched p c) (line : Line ρ)
    {o : Outcome} (nothing : ¬ (p.tears ∧ o.rewrite = .failed true)) :
    Matched p (begin p c line o).1 ∧ Good p (begin p c line o).2 := by
  have quiet : ∀ old, c.conn.or (if o.dials then some {} else none) = some old → old.closed = true ∨ Quiet old := by
    grind [Option.or_eq_some_iff,matched.idle,quiet_fresh]
  unfold begin
  cases found : c.conn.or (if o.dials then some {} else none) with
  | none =>
    refine ⟨matched,?_⟩
    rintro r ⟨⟩ answer replied
    cases replied
  | some old =>
    grind [matched_busy,write_sent,good_none,again_kept]

theorem awaits_closes (awaits : Awaits p line conn) :
    Awaits p line { conn with closed := true } := ⟨awaits.whole,awaits.last⟩

theorem step_kept {i : Input ρ} (nothing : LeavesNothing p c i) (matched : Matched p c) :
    Matched p (step p c i).1 ∧ Good p (step p c i).2 := by
  cases i with
  | connect =>
    refine ⟨?_,good_none⟩
    cases pending : c.pending with
    | some q => simpa [step,pending] using matched
    | none =>
      simp only [step,pending]
      refine matched_idle rfl ?_
      rintro _ ⟨⟩
      exact .inr quiet_fresh
  | call request o =>
    cases pending : c.pending with
    | some q => simpa [step,pending] using ⟨matched,good_none⟩
    | none =>
      simp only [step,pending]
      refine begin_kept rfl (matched_idle rfl ?_) ⟨c.calls,request⟩ nothing
      exact matched.idle pending
  | hears b =>
    refine ⟨?_,good_none⟩
    refine ⟨fun idle conn current => ?_,fun q busy conn current => ?_⟩
    · obtain ⟨old,before,rfl⟩ := Option.map_eq_some_iff.mp current
      rcases matched.idle idle old before with closed | quiet
      · exact .inl ((hear_closed old).trans closed)
      · exact .inr (hear_quiet quiet)
    · obtain ⟨old,before,rfl⟩ := Option.map_eq_some_iff.mp current
      exact hear_awaits (matched.busy q busy old before)
  | closes =>
    refine ⟨?_,good_none⟩
    refine ⟨fun idle conn current => ?_,fun q busy conn current => ?_⟩
    · obtain ⟨old,before,rfl⟩ := Option.map_eq_some_iff.mp current
      exact .inl rfl
    · obtain ⟨old,before,rfl⟩ := Option.map_eq_some_iff.mp current
      exact awaits_closes (matched.busy q busy old before)
  | reads =>
    cases pending : c.pending with
    | none => simpa [step,pending] using ⟨matched,good_none⟩
    | some q =>
      cases current : c.conn with
      | none => simpa [step,current] using ⟨matched,good_none⟩
      | some conn =>
        cases found : firstAnswer p conn.unread with
        | none => simpa [step,pending,current,found] using ⟨matched,good_none⟩
        | some split =>
          obtain ⟨whole,quiet⟩ := read_awaits (matched.busy q pending conn current) found
          simp only [step,pending,current,found]
          constructor
          · grind [matched_idle]
          · rintro r ⟨⟩ _ ⟨⟩
            exact whole
  | readFails taken redials rewrite =>
    grind [step,good_none,LeavesNothing,again_kept,matched_idle,good_failed,Option.map_eq_some_iff]

/-- In a run in which no second attempt leaves something behind, what each call returns after
    a read is the answer to its request. -/
theorem run_good {inputs : List (Input ρ)} (along : Along (step p) (LeavesNothing p) {} inputs) :
    ∀ o ∈ trace (step p) {} inputs, Good p o := by
  have fresh : Matched p ({} : Client ρ) := matched_idle rfl (fun _ current => by cases current)
  exact outputs_along (fun _ _ nothing matched => step_kept nothing matched) along fresh

structure Query where
  proto : Text
  srcIP : Addr
  srcPort : UInt16
  dstIP : Addr
  dstPort : UInt16

def uidLine : Protocol := ⟨(· == 10),true⟩

def lookup (trimSpace : Text → Text) : Result Query → Int
  | .replied answer => (atoi (trimSpace (answer.map (fun a => Char.ofNat a.byte.toNat)))).getD (-1)
  | .noSocket | .failed => -1

def ackByte : Protocol := ⟨fun _ => true,false⟩

inductive ProtectError
  | failed
  | nack

def protectFD : Result Int → Option ProtectError
  | .noSocket => none
  | .failed => some .failed
  | .replied answer => if answer.map Answer.byte = [1] then none else some .nack

/-- Each UID that is returned is the answer to that very request. -/
def LookupsMatched (trimSpace : Text → Text) (inputs : List (Input Query)) : Prop :=
  ∀ r, some r ∈ trace (step uidLine) {} inputs → lookup trimSpace r.result ≠ -1 →
    ∃ answer, r.result = .replied answer ∧ AnswerTo uidLine r.line answer

/-- The acknowledgement that `protectFD` takes was sent for that very descriptor. -/
def AcksMatched (inputs : List (Input Int)) : Prop :=
  ∀ r answer, some r ∈ trace (step ackByte) {} inputs → r.result = .replied answer → protectFD r.result = none →
    AnswerTo ackByte r.line answer

/-- Answers belong to their requests in every run in which no second attempt gives up on an
    open connection after it has written something. -/
theorem replies_matched (trimSpace : Text → Text) {lookups : List (Input Query)} {protects : List (Input Int)}
    (lookupsEnd : Along (step uidLine) (LeavesNothing uidLine) {} lookups)
    (protectsEnd : Along (step ackByte) (LeavesNothing ackByte) {} protects) :
    LookupsMatched trimSpace lookups ∧ AcksMatched protects := by
  constructor
  · intro r shown resolved
    have good := run_good lookupsEnd _ shown r rfl
    cases result : r.result with
    | noSocket => simp [lookup,result] at resolved
    | failed => simp [lookup,result] at resolved
    | replied answer => exact ⟨answer,rfl,good answer result⟩
  · intro r answer shown replied _
    exact run_good protectsEnd _ shown r rfl answer replied

def sampleOutcome : Outcome := ⟨true,.done,true,.done⟩

def lateAnswer {ρ : Type} (first second : ρ) (bytes : List UInt8) : List (Input ρ) :=
  [.call first sampleOutcome,.readFails 0 true .done,.readFails 0 true .done,.call second sampleOutcome] ++
    bytes.map .hears ++ [.reads]

def sampleQuery (port : UInt16) : Query := ⟨"tcp".toList,.v4 1,port,.v4 2,443⟩

/-- The second call takes the late answer for its own. -/
theorem late_answer_taken :
    ¬ LookupsMatched (List.filter Char.isDigit) (lateAnswer (sampleQuery 1) (sampleQuery 2) [55,10]) ∧
    ¬ AcksMatched (lateAnswer 3 4 [1]) := by
  constructor
  · intro matched
    have shown : some ⟨⟨1,sampleQuery 2⟩,.replied [⟨55,some ⟨0,sampleQuery 1⟩,0⟩,⟨10,some ⟨0,sampleQuery 1⟩,1⟩]⟩ ∈
        trace (step uidLine) {} (lateAnswer (sampleQuery 1) (sampleQuery 2) [55,10]) := mem_of_getLast? rfl
    obtain ⟨answer,replied,⟨own,-⟩,-⟩ := matched _ shown (by decide)
    cases replied
    have call := own _ mem_cons_self
    simp at call
  · intro matched
    have shown : some ⟨⟨1,(4 : Int)⟩,.replied [⟨1,some ⟨0,3⟩,0⟩]⟩ ∈ trace (step ackByte) {} (lateAnswer 3 4 [1]) :=
      mem_of_getLast? rfl
    obtain ⟨⟨own,-⟩,-⟩ := matched _ _ shown rfl rfl
    have call := own _ mem_cons_self
    simp at call

/-- A first attempt that times out is made good by the second. -/
theorem replies_matched_retry :
    LookupsMatched (List.filter Char.isDigit)
        [.call (sampleQuery 1) sampleOutcome,.readFails 0 true .done,.hears 55,.hears 10,.reads] ∧
      AcksMatched [.call 3 sampleOutcome,.hears 1,.reads] :=
  replies_matched _ (by decide) (by decide)

end TunnelCat.AndroidIpc
