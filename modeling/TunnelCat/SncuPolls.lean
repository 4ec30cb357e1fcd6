import TunnelCat.Sncu

/-!
The bytes that the polls of an SNCU client bring (`snc/core/session.go`, `snc-exit/udp_tunnel.go`). A poll
takes them from the target before it is known that its answer arrives.
-/
namespace TunnelCat.Sncu
open Frames Egress HostPort Runs List Table
open Tunnel (Pool Request Call Effect Frame sncuHandle)

variable (s : Net)

/-- What the `Read`s of a connection have returned is the beginning of what the target sent,
    of which the exit has taken the beginning in `taken`. -/
def ReadsInSequence : Prop := ∀ c, s.returned c <+: s.taken c

def FreshID (reqID : UInt32) : Prop := ∀ d ∈ s.sent, d.reqID ≠ reqID

/-- Request ids are not used again, no connection is dialled a second time under its id, and
    a poll is handled while its target has bytes only when all bytes taken before have been
    returned by `Read`. -/
def ReturnedFirst : Input → Prop
  | .roundTrip d => FreshID s d.reqID
  | .poll _ reqID _ _ => FreshID s reqID
  | .handles k _ a => ∀ d ∈ s.handlers[k]?,
      (s.pool.lookup d.send.connID = none → s.opens d.send.connID = 0) ∧
        (d.send.payload = [] → a.received ≠ [] → s.returned d.send.connID = s.taken d.send.connID)
  | _ => True

inductive Place
  | buffer
  | reading (r : Nat)
  | answer (reqID : UInt32)

def At (c : ConnID) : Place → List UInt8 → Prop
  | .buffer, b => s.readBuf c = b
  | .reading r, b => ∃ rd, s.reads.lookup r = some rd ∧ rd.connID = c ∧ rd.phase = .got b
  | .answer reqID, b => ∃ w, s.pending.lookup reqID = some w ∧ w.datagram.send.connID = c ∧
      ∃ resp ∈ s.answers, resp.reqID = reqID ∧ resp.data = b

def Whole (c : ConnID) : Prop :=
  ∃ out, s.taken c = s.returned c ++ out ∧
    ∀ p b, At s c p b → b ≠ [] → b = out ∧ ∀ p' b', At s c p' b' → b' ≠ [] → p' = p

structure Linked (s : Net) : Prop where
  waits : ∀ id w, s.pending.lookup id = some w → w.datagram.reqID = id ∧ ∀ d ∈ s.sent, d.reqID = id → d = w.datagram
  running : ∀ d ∈ s.handlers, d ∈ s.sent
  answers : ∀ resp ∈ s.answers, ∃ d ∈ s.sent, d.reqID = resp.reqID
  readers : ∀ id w r, s.pending.lookup id = some w → w.caller = .read r →
    ∃ rd, s.reads.lookup r = some rd ∧ rd.connID = w.datagram.send.connID ∧ rd.phase = .waiting id
  opened : ∀ c, (s.pool.lookup c).isSome → s.opens c = 1
  whole : ∀ c, Whole s c

section
variable {s s' : Net} {c : ConnID}

theorem Whole.intro (p : Place) (out : List UInt8) (taken : s.taken c = s.returned c ++ out)
    (only : ∀ q b, At s c q b → b ≠ [] → q = p ∧ b = out) : Whole s c := by
  refine ⟨out,taken,?_⟩
  grind

theorem Whole.elim (whole : Whole s c) {p : Place} {b : List UInt8} (there : At s c p b) (some_ : b ≠ []) :
    s.taken c = s.returned c ++ b ∧ ∀ q b', At s c q b' → b' ≠ [] → q = p ∧ b' = b := by
  obtain ⟨out,taken,all⟩ := whole
  grind

theorem Whole.shrink (whole : Whole s c) (taken : s'.taken c = s.taken c) (returned : s'.returned c = s.returned c)
    (fewer : ∀ p b, At s' c p b → b ≠ [] → At s c p b) : Whole s' c := by
  obtain ⟨out,before,all⟩ := whole
  refine ⟨out,by rw [taken,returned,before],?_⟩
  grind

theorem Whole.nowhere (whole : Whole s c) (all : s.returned c = s.taken c) {p : Place} {b : List UInt8}
    (there : At s c p b) : b = [] := by
  by_contra some_
  have taken := (whole.elim there some_).1
  rw [all] at taken
  exact some_ (append_right_eq_self.mp taken.symm)

end

section
variable {s : Net} {reads : Table Nat Reading}

variable (linked : Linked s)
include linked

theorem Linked.other_reader {r r' : Nat} {id : UInt32} {w : Waiting}
    (idle : ∀ rd, s.reads.lookup r = some rd → rd.phase ≠ .waiting id)
    (others : ∀ k, k ≠ r → reads.lookup k = s.reads.lookup k)
    (found : s.pending.lookup id = some w) (caller : w.caller = .read r') :
    ∃ rd, reads.lookup r' = some rd ∧ rd.connID = w.datagram.send.connID ∧ rd.phase = .waiting id := by
  grind [linked.readers]

theorem linked_send {d : Datagram} {caller : Caller}
    (fresh : FreshID s d.reqID)
    (readers : ∀ id w r, (s.pending.insert d.reqID ⟨d,1,caller⟩).lookup id = some w → w.caller = .read r →
      ∃ rd, reads.lookup r = some rd ∧ rd.connID = w.datagram.send.connID ∧ rd.phase = .waiting id)
    (places : ∀ r rd b, reads.lookup r = some rd → rd.phase = .got b → s.reads.lookup r = some rd) :
    Linked { s with pending := s.pending.insert d.reqID ⟨d,1,caller⟩, sent := s.sent ++ [d], reads := reads } := by
  refine ⟨?_,?_,?_,readers,linked.opened,?_⟩
  · intro id w found
    rcases of_lookup_insert found with ⟨rfl,rfl⟩ | ⟨other,before⟩
    · refine ⟨rfl,fun e sent same => ?_⟩
      rcases mem_append.mp sent with old | new
      · exact absurd same (fresh e old)
      · exact mem_singleton.mp new
    grind [linked.waits]
  · exact fun e running => mem_append_left _ (linked.running e running)
  · grind [linked.answers]
  · intro c
    refine (linked.whole c).shrink rfl rfl ?_
    intro p b there _
    match p, there with
    | .buffer, there => exact there
    | .reading r, ⟨rd,found,conn,got⟩ => exact ⟨rd,places r rd b found got,conn,got⟩
    | .answer id, ⟨w,found,conn,resp,answer,same,data⟩ =>
      rcases of_lookup_insert found with ⟨rfl,-⟩ | ⟨other,before⟩
      · obtain ⟨e,sent,reused⟩ := linked.answers resp answer
        exact absurd (reused.trans same) (fresh e sent)
      · exact ⟨w,before,conn,resp,answer,same,data⟩

theorem linked_roundTrip {d : Datagram} (fresh : FreshID s d.reqID) :
    Linked (roundTrip s d .write) := by
  unfold roundTrip
  grind [linked_send,linked.readers]

theorem linked_poll {r : Nat} {reqID : UInt32} {token : Text} {seq : Nat} (fresh : FreshID s reqID) :
    Linked (poll s r reqID token seq) := by
  unfold poll
  cases reading : s.reads.lookup r with
  | none => exact linked
  | some rd =>
    dsimp only
    split_ifs with starts
    · obtain ⟨polling,unused⟩ := starts
      have none_ : s.pending.lookup reqID = none := by simpa using unused
      simp only [roundTrip,none_]
      refine linked_send (d := ⟨reqID,token,⟨rd.connID,seq,[],[],noTarget_fits⟩⟩) linked fresh ?_ ?_
      · intro id w r' found caller
        rcases of_lookup_insert found with ⟨rfl,rfl⟩ | ⟨-,before⟩
        · grind
        · refine linked.other_reader (r := r) ?_ (fun _ apart => AList.lookup_insert_ne apart) before caller
          grind
      · grind
    · exact linked

theorem linked_erase {w : Waiting} :
    Linked { s with pending := s.pending.erase w.datagram.reqID } := by
  refine ⟨?_,linked.running,linked.answers,?_,linked.opened,?_⟩
  · exact fun id w' found => linked.waits id w' (of_lookup_erase found).2
  · grind [linked.readers]
  · intro c
    refine (linked.whole c).shrink rfl rfl ?_
    intro p b there _
    match p, there with
    | .buffer, there => exact there
    | .reading r, there => exact there
    | .answer id, ⟨w',found,conn,resp,answer,same,data⟩ =>
      exact ⟨w',(of_lookup_erase found).2,conn,resp,answer,same,data⟩

end

section
variable {s : Net}

def Answers (s : Net) (w : Waiting) (data : List UInt8) : Prop :=
  data ≠ [] → ∃ resp ∈ s.answers, resp.reqID = w.datagram.reqID ∧ resp.data = data

variable {w : Waiting} {data : List UInt8}

theorem whole_buffered (linked : Linked s)
    (found : s.pending.lookup w.datagram.reqID = some w) (from_ : Answers s w data) (c : ConnID) :
    Whole { s with
      pending := s.pending.erase w.datagram.reqID
      readBuf := Function.update s.readBuf w.datagram.send.connID (s.readBuf w.datagram.send.connID ++ data) } c := by
  by_cases own : c = w.datagram.send.connID
  · subst own
    by_cases none_ : data = []
    · refine ((linked_erase (w := w) linked).whole w.datagram.send.connID).shrink rfl rfl ?_
      intro p b there _
      match p, there with
      | .buffer, there => simpa [none_] using there
      | .reading r, there => exact there
      | .answer id, there => exact there
    · obtain ⟨resp,answer,same,bytes⟩ := from_ none_
      obtain ⟨taken,only⟩ := (linked.whole w.datagram.send.connID).elim
        (p := .answer w.datagram.reqID) ⟨w,found,rfl,resp,answer,same,bytes⟩ none_
      refine Whole.intro .buffer data taken ?_
      intro q b there some_
      match q, there with
      | .buffer, there =>
        have empty : s.readBuf w.datagram.send.connID = [] := by
          by_contra held
          cases (only .buffer _ rfl held).1
        grind [At]
      | .reading r, there => cases (only (.reading r) b there some_).1
      | .answer id, ⟨w',found',rest⟩ =>
        obtain ⟨apart,before⟩ := of_lookup_erase found'
        cases (only (.answer id) b ⟨w',before,rest⟩ some_).1
        exact absurd rfl apart
  · refine ((linked_erase (w := w) linked).whole c).shrink rfl rfl ?_
    intro p b there _
    match p, there with
    | .buffer, there => simpa [At,Function.update_of_ne own] using there
    | .reading r, there => exact there
    | .answer id, there => exact there

theorem whole_read {r : Nat} {rd : Reading} (linked : Linked s)
    (found : s.pending.lookup w.datagram.reqID = some w) (from_ : Answers s w data)
    (conn : rd.connID = w.datagram.send.connID) (c : ConnID) :
    Whole { s with
      pending := s.pending.erase w.datagram.reqID
      reads := s.reads.insert r { rd with phase := if data = [] then .polling else .got data } } c := by
  by_cases moves : c = w.datagram.send.connID ∧ data ≠ []
  · obtain ⟨rfl,some_⟩ := moves
    obtain ⟨resp,answer,same,bytes⟩ := from_ some_
    obtain ⟨taken,only⟩ := (linked.whole w.datagram.send.connID).elim
      (p := .answer w.datagram.reqID) ⟨w,found,rfl,resp,answer,same,bytes⟩ some_
    refine Whole.intro (.reading r) data taken ?_
    intro q b there held
    match q, there with
    | .buffer, there => cases (only .buffer b there held).1
    | .reading r', ⟨rd',found',conn',got⟩ =>
      rcases of_lookup_insert found' with ⟨rfl,rfl⟩ | ⟨-,before⟩
      · grind
      · cases (only (.reading r') b ⟨rd',before,conn',got⟩ held).1
    | .answer id, ⟨w',found',rest⟩ =>
      obtain ⟨apart,before⟩ := of_lookup_erase found'
      cases (only (.answer id) b ⟨w',before,rest⟩ held).1
      exact absurd rfl apart
  · refine ((linked_erase (w := w) linked).whole c).shrink rfl rfl ?_
    intro p b there held
    match p, there with
    | .buffer, there => exact there
    | .reading r', ⟨rd',found',conn',got⟩ =>
      rcases of_lookup_insert found' with ⟨rfl,rfl⟩ | ⟨-,before⟩
      · grind
      · exact ⟨rd',before,conn',got⟩
    | .answer id, there => exact there

theorem linked_returns (linked : Linked s)
    (found : s.pending.lookup w.datagram.reqID = some w) (from_ : Answers s w data) : Linked (returns s w data) := by
  have erased := linked_erase (w := w) linked
  unfold returns
  cases caller : w.caller with
  | write =>
    exact ⟨erased.waits,erased.running,erased.answers,erased.readers,erased.opened,
      whole_buffered linked found from_⟩
  | read r =>
    obtain ⟨rd,reading,conn,waiting⟩ := linked.readers _ w r found caller
    simp only [reading]
    refine ⟨erased.waits,erased.running,erased.answers,?_,erased.opened,whole_read linked found from_ conn⟩
    intro id w' r' found' caller'
    refine erased.other_reader (r := r) ?_ (fun _ apart => AList.lookup_insert_ne apart) found' caller'
    -- another call of the same reader would wait under the same id
    intro rd' reading' waiting'
    obtain rfl := Option.some.inj (reading.symm.trans reading')
    rw [waiting] at waiting'
    exact (of_lookup_erase found').1 (Phase.waiting.inj waiting').symm

theorem answers_nil (w : Waiting) : Answers s w [] := fun some_ => absurd rfl some_

theorem linked_fails {reqID : UInt32} (linked : Linked s) (found : s.pending.lookup reqID = some w) :
    Linked (returns s w []) := by
  grind [linked.waits,linked_returns,answers_nil]

theorem linked_timeout {reqID : UInt32} (linked : Linked s) : Linked (timeout s reqID) := by
  unfold timeout
  cases found : s.pending.lookup reqID with
  | none => exact linked
  | some w =>
    dsimp only
    split_ifs
    · obtain ⟨own,all⟩ := linked.waits reqID w found
      -- the call is the same but for its number of attempts
      have same (id : UInt32) (w' : Waiting)
          (found' : (s.pending.insert reqID { w with attempt := w.attempt + 1 }).lookup id = some w') :
          ∃ w₀, s.pending.lookup id = some w₀ ∧ w'.datagram = w₀.datagram ∧ w'.caller = w₀.caller := by
        rcases of_lookup_insert found' with ⟨rfl,rfl⟩ | ⟨-,before⟩
        · exact ⟨w,found,rfl,rfl⟩
        · exact ⟨w',before,rfl,rfl⟩
      refine ⟨?_,?_,?_,?_,linked.opened,?_⟩
      · grind [linked.waits]
      · exact fun e running => mem_append_left _ (linked.running e running)
      · intro resp answer
        obtain ⟨e,sent,reqID_⟩ := linked.answers resp answer
        exact ⟨e,mem_append_left _ sent,reqID_⟩
      · grind [linked.readers]
      · intro c
        refine (linked.whole c).shrink rfl rfl ?_
        intro p b there _
        cases p with
        | buffer => exact there
        | reading r => exact there
        | answer id =>
          obtain ⟨w',found',conn,rest⟩ := there
          obtain ⟨w₀,before,datagram,-⟩ := same id w' found'
          exact ⟨w₀,before,datagram ▸ conn,rest⟩
    · exact linked_fails linked found

theorem linked_answered {resp : Response} (linked : Linked s) (answer : resp ∈ s.answers) :
    Linked (answered s resp) := by
  unfold answered
  cases found : s.pending.lookup resp.reqID with
  | none => exact linked
  | some w =>
    have own := (linked.waits resp.reqID w found).1
    refine linked_returns linked (own ▸ found) ?_
    intro some_
    grind

end

section
variable {s : Net}

variable (linked : Linked s)
include linked

theorem linked_read {r : Nat} {connID : ConnID} {size : Nat} : Linked (read s r connID size) := by
  unfold read
  split_ifs with held known
  · refine ⟨linked.waits,linked.running,linked.answers,linked.readers,linked.opened,?_⟩
    intro c
    by_cases own : c = connID
    · subst own
      obtain ⟨taken,only⟩ := (linked.whole c).elim (p := .buffer) rfl held
      refine Whole.intro .buffer ((s.readBuf c).drop size) ?_ ?_
      · simp [taken]
      · intro q b there some_
        match q, there with
        | .buffer, there => exact ⟨rfl,by simpa [At] using there.symm⟩
        | .reading r, there => cases (only (.reading r) b there some_).1
        | .answer id, there => cases (only (.answer id) b there some_).1
    · refine (linked.whole c).shrink rfl (Function.update_of_ne own _ _) ?_
      intro p b there _
      match p, there with
      | .buffer, there => simpa [At,Function.update_of_ne own] using there
      | .reading r, there => exact there
      | .answer id, there => exact there
  · exact linked
  · have none_ : s.reads.lookup r = none := by simpa using known
    refine ⟨linked.waits,linked.running,linked.answers,?_,linked.opened,?_⟩
    · intro id w r' found caller
      refine linked.other_reader (r := r) ?_ (fun _ apart => AList.lookup_insert_ne apart) found caller
      intro rd reading
      rw [none_] at reading
      cases reading
    · intro c
      refine (linked.whole c).shrink rfl rfl ?_
      intro p b there _
      match p, there with
      | .buffer, there => exact there
      | .reading r', ⟨rd,found,conn,got⟩ =>
        rcases of_lookup_insert found with ⟨-,rfl⟩ | ⟨-,before⟩
        · cases got
        · exact ⟨rd,before,conn,got⟩
      | .answer id, there => exact there

theorem linked_finish {r : Nat} : Linked (finish s r) := by
  unfold finish
  split
  case h_2 => exact linked
  case h_1 connID size data reading =>
    refine ⟨linked.waits,linked.running,linked.answers,?_,linked.opened,?_⟩
    · intro id w r' found caller
      refine linked.other_reader (r := r) ?_ (fun _ apart => AList.lookup_erase_ne apart) found caller
      grind
    · intro c
      by_cases moves : c = connID ∧ data ≠ []
      · obtain ⟨rfl,some_⟩ := moves
        obtain ⟨taken,only⟩ := (linked.whole c).elim (p := .reading r) ⟨_,reading,rfl,rfl⟩ some_
        have empty : s.readBuf c = [] := by
          by_contra held
          cases (only .buffer _ rfl held).1
        refine Whole.intro .buffer (data.drop size) ?_ ?_
        · simp [taken]
        · intro q b there held
          match q, there with
          | .buffer, there => exact ⟨rfl,by simpa [empty] using there.symm⟩
          | .reading r', ⟨rd,found,rest⟩ =>
            obtain ⟨apart,before⟩ := of_lookup_erase found
            cases (only (.reading r') b ⟨rd,before,rest⟩ held).1
            exact absurd rfl apart
          | .answer id, there => cases (only (.answer id) b there held).1
      · have same (f : ConnID → List UInt8) (part : List UInt8) (nothing : data = [] → part = []) :
            Function.update f connID (f connID ++ part) c = f c := by
          grind
        refine (linked.whole c).shrink rfl (same s.returned _ (by rintro rfl; simp)) ?_
        intro p b there _
        match p, there with
        | .buffer, there => exact (same s.readBuf _ (by rintro rfl; simp)).symm.trans there
        | .reading r', ⟨rd,found,rest⟩ => exact ⟨rd,(of_lookup_erase found).2,rest⟩
        | .answer id, there => exact there

theorem linked_arrives {d : Datagram} (sent : d ∈ s.sent) :
    Linked { s with handlers := s.handlers ++ [d], arrived := s.arrived ++ [d.send] } := by
  refine ⟨linked.waits,?_,linked.answers,linked.readers,linked.opened,linked.whole⟩
  grind [linked.running]

theorem linked_pool {pool : Pool} (fewer : ∀ c, (pool.lookup c).isSome → (s.pool.lookup c).isSome) :
    Linked { s with pool := pool } :=
  ⟨linked.waits,linked.running,linked.answers,linked.readers,fun c there => linked.opened c (fewer c there),linked.whole⟩

end

section
variable {S : Strings} {s : Net} {cfg : Config} {a : Call} {d : Datagram} {c : ConnID}

theorem pool_after (there : ((sncuHandle S cfg a s.pool d.request).1.lookup c).isSome) :
    (s.pool.lookup c).isSome ∨ c = d.send.connID := by
  obtain ⟨p,found⟩ := Option.isSome_iff_exists.mp there
  rcases Tunnel.serve_grows (S := S) (a := a) .sncu s.pool d.request c p found with
    ⟨old,before,-⟩ | ⟨f,frame,-,stored⟩
  · exact .inl (by simp [before])
  · rw [request_frame,Option.some.injEq,Frame.upload.injEq] at frame
    exact .inr (stored.connID.trans (by rw [← frame]; rfl))

theorem opened_after (opened : ∀ c, (s.pool.lookup c).isSome → s.opens c = 1)
    (anew : s.pool.lookup d.send.connID = none → s.opens d.send.connID = 0)
    (there : ((sncuHandle S cfg a s.pool d.request).1.lookup c).isSome) :
    opensAfter s (sncuHandle S cfg a s.pool d.request).1 d.send.connID c = 1 := by
  unfold opensAfter
  by_cases own : c = d.send.connID
  · subst own
    cases before : s.pool.lookup d.send.connID with
    | none => simp [there,anew before]
    | some p => simp [opened d.send.connID (by simp [before])]
  grind [pool_after]

theorem taken_after (opened : ∀ c, (s.pool.lookup c).isSome → s.opens c = 1) (c : ConnID) :
    (handle S s cfg a d).taken c =
      s.taken c ++ if c = d.send.connID then returnedData (sncuHandle S cfg a s.pool d.request).2.effects else [] := by
  by_cases own : c = d.send.connID
  · subst own
    by_cases none_ : returnedData (sncuHandle S cfg a s.pool d.request).2.effects = []
    · simp only [handle,none_,append_nil,Function.update_eq_self,ite_self]
    · have there := (handle_returned none_).2.2
      have before : ¬ (s.pool.lookup d.send.connID).isNone := by
        simpa [Option.isSome_iff_ne_none] using there
      have once : opensAfter s (sncuHandle S cfg a s.pool d.request).1 d.send.connID d.send.connID = 1 := by
        rw [opensAfter,if_neg (fun anew => before anew.1)]
        exact opened d.send.connID there
      simp [handle,once]
  · simp only [handle,own,if_false,append_nil]
    split_ifs
    · exact Function.update_of_ne own _ _
    · rfl

theorem at_after {p : Place} {b : List UInt8} (there : At (handle S s cfg a d) c p b) :
    At s c p b ∨ p = .answer d.reqID ∧ b = returnedData (sncuHandle S cfg a s.pool d.request).2.effects ∧
      ∃ w, s.pending.lookup d.reqID = some w ∧ w.datagram.send.connID = c := by
  match p, there with
  | .buffer, there => exact .inl there
  | .reading r, there => exact .inl there
  | .answer id, ⟨w,found,conn,resp,answer,same,data⟩ =>
    rcases mem_append.mp answer with old | new
    · exact .inl ⟨w,found,conn,resp,old,same,data⟩
    · rw [mem_singleton.mp new] at same data
      obtain rfl : d.reqID = id := same
      exact .inr ⟨rfl,data.symm,w,found,conn⟩

theorem whole_handle (linked : Linked s) (sent : d ∈ s.sent)
    (first : d.send.payload = [] → a.received ≠ [] → s.returned d.send.connID = s.taken d.send.connID) (c : ConnID) :
    Whole (handle S s cfg a d) c := by
  have taken : (handle S s cfg a d).taken c = _ := taken_after linked.opened c
  by_cases moves : c = d.send.connID ∧ returnedData (sncuHandle S cfg a s.pool d.request).2.effects ≠ []
  · obtain ⟨rfl,some_⟩ := moves
    obtain ⟨payload,received,-⟩ := handle_returned some_
    have all := first payload received
    refine Whole.intro (.answer d.reqID) (returnedData (sncuHandle S cfg a s.pool d.request).2.effects) ?_ ?_
    · rw [taken,if_pos rfl,← all]
      rfl
    · intro q b there held
      rcases at_after there with old | ⟨place,data,-⟩
      · exact absurd ((linked.whole d.send.connID).nowhere all old) held
      · exact ⟨place,data⟩
  · refine (linked.whole c).shrink ?_ rfl ?_
    · grind
    · intro p b there held
      rcases at_after there with old | ⟨-,data,w,found,conn⟩
      · exact old
      · -- the call that waits under this id sent this datagram
        have same := (linked.waits d.reqID w found).2 d sent rfl
        exact absurd ⟨by rw [← conn,← same],data ▸ held⟩ moves

theorem linked_handle (linked : Linked s) (sent : d ∈ s.sent)
    (anew : s.pool.lookup d.send.connID = none → s.opens d.send.connID = 0)
    (first : d.send.payload = [] → a.received ≠ [] → s.returned d.send.connID = s.taken d.send.connID) :
    Linked (handle S s cfg a d) := by
  refine ⟨linked.waits,linked.running,?_,linked.readers,fun c there => opened_after linked.opened anew there,
    whole_handle linked sent first⟩
  intro resp answer
  rcases mem_append.mp answer with old | new
  · exact linked.answers resp old
  · rw [mem_singleton.mp new]
    exact ⟨d,sent,rfl⟩

theorem linked_next {i : Input} (meets : ReturnedFirst s i) (linked : Linked s) : Linked (next S s i) := by
  cases i with
  | roundTrip d => exact linked_roundTrip linked meets
  | timeout reqID => exact linked_timeout linked
  | fails reqID =>
    grind [next,linked_fails]
  | read r connID size => exact linked_read linked
  | poll r reqID token seq => exact linked_poll linked meets
  | finish r => exact linked_finish linked
  | arrives k =>
    grind [next,linked_arrives]
  | handles k cfg a =>
    simp only [next]
    cases there : s.handlers[k]? with
    | none => exact linked
    | some d =>
      obtain ⟨anew,first⟩ := meets d there
      have rest : Linked { s with handlers := s.handlers.eraseIdx k } :=
        ⟨linked.waits,fun e running => linked.running e (mem_of_mem_eraseIdx running),linked.answers,
          linked.readers,linked.opened,linked.whole⟩
      exact linked_handle rest (linked.running d (mem_of_getElem? there)) anew first
  | answered k =>
    grind [next,linked_answered]
  | evict connID =>
    refine linked_pool linked ?_
    grind
  | reset connID =>
    refine linked_pool linked ?_
    grind [Tunnel.resetConn]

end

theorem linked_fresh : Linked {} := by
  refine ⟨?_,?_,?_,?_,?_,?_⟩
  · intro id w found
    cases found
  · intro d running
    cases running
  · intro resp answer
    cases answer
  · intro id w r found
    cases found
  · intro c there
    cases there
  · intro c
    refine ⟨[],rfl,?_⟩
    intro p b there some_
    match p, there with
    | .buffer, there => exact absurd there.symm some_
    | .reading r, ⟨rd,found,_⟩ => cases found
    | .answer id, ⟨w,found,_⟩ => cases found

/-- `Read`s return what the target sent, in sequence, in every run that uses no request id and
    no connection id twice and in which a poll takes bytes only when all earlier ones have
    been returned. -/
theorem reads_in_sequence (S : Strings) {inputs : List Input} (meets : Along (step S) ReturnedFirst {} inputs) :
    ReadsInSequence (final (step S) {} inputs) := by
  intro c
  have linked : Linked (final (step S) {} inputs) :=
    state_along (P := Linked) (fun _ _ meets linked => linked_next meets linked) meets linked_fresh
  obtain ⟨out,taken,-⟩ := linked.whole c
  exact ⟨out,taken.symm⟩

instance ReturnedFirst.decidable (s : Net) : ∀ i, Decidable (ReturnedFirst s i)
  | .roundTrip d => by unfold ReturnedFirst FreshID; infer_instance
  | .poll _ reqID _ _ => by unfold ReturnedFirst FreshID; infer_instance
  | .handles k cfg a => by unfold ReturnedFirst; infer_instance
  | .timeout _ | .fails _ | .read _ _ _ | .finish _ | .arrives _ | .answered _ | .evict _ | .reset _ => isTrue trivial

def samplePoll (received : List UInt8) : Input := .handles 0 .bare { Call.alone with received := received }

def sampleLoss : List Input :=
  sampleDial ++
    [.read 0 Tunnel.sampleID 100,.poll 0 1 "alice".toList 1,.arrives 1,samplePoll [1],.timeout 1,.arrives 2,
      samplePoll [2],.answered 2,.finish 0]

theorem poll_bytes_lost : ¬ ∀ S inputs, ReadsInSequence (final (step S) {} inputs) := by
  intro all
  have returned : (final (step .ascii) {} sampleLoss).returned Tunnel.sampleID = [2] := by decide +kernel
  have taken : (final (step .ascii) {} sampleLoss).taken Tunnel.sampleID = [1,2] := by decide +kernel
  have wrong := all .ascii sampleLoss Tunnel.sampleID
  rw [returned,taken] at wrong
  revert wrong
  decide

/-- A poll that is answered, and another. -/
theorem reads_in_sequence_twice :
    ReadsInSequence (final (step .ascii) {} (sampleDial ++
      [.read 0 Tunnel.sampleID 100,.poll 0 1 "alice".toList 1,.arrives 1,samplePoll [1],.answered 1,.finish 0,
        .read 0 Tunnel.sampleID 100,.poll 0 2 "alice".toList 2,.arrives 2,samplePoll [2],.answered 2,.finish 0])) :=
  reads_in_sequence .ascii (by decide +kernel)

end TunnelCat.Sncu
