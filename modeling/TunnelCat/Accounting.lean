import TunnelCat.Stats
import TunnelCat.Tunnel

/-!
What an exit records as the uploads of its users (`snc-exit/handler.go`, `sessions.go`, `stats.go`): when a
stream of a connection ends, the connection's counter is recorded for the user of the stream. A second stream
records it again, and a frame counts when it comes, not when it is written. Counts are natural numbers, as
in `Stats`.
-/
namespace TunnelCat.Accounting
open Egress Frames HostPort Reorder Runs Stats Tunnel List Table

/-- A session of all that ever were: who opened it, the bytes written to its target, and those
    recorded for it. The code has no such list. -/
structure Entry where
  owner : Text
  written : Nat
  recorded : Nat

structure Owner where
  username : Text
  country : Text
  number : Nat

structure Stream where
  username : Text
  connID : ConnID

structure Books where
  clock : Int
  pool : Pool
  owners : Table ConnID Owner
  streams : Table Nat Stream
  stats : Option StatsCollector
  ledger : List Entry

def sumOf (value : Entry → Nat) (u : Text) (ledger : List Entry) : Nat :=
  (ledger.map (fun e => if e.owner = u then value e else 0)).sum

variable (b : Books) (pool : Pool) (connID : ConnID)

def Books.writtenFor (u : Text) : Nat := sumOf Entry.written u b.ledger

def Books.recordedFor (u : Text) : Nat := (b.stats.map (fun sc => sc.up u)).getD 0

def Books.enrol (username : Text) : Books :=
  { b with owners := b.owners.insert connID ⟨username,[],b.ledger.length⟩, ledger := b.ledger ++ [⟨username,0,0⟩] }

def Books.setCountry (cc : Text) : Books :=
  match b.owners.lookup connID with
  | none => b
  | some o => { b with owners := b.owners.insert connID { o with country := cc } }

def Books.post (change : Entry → Entry) : Books :=
  match b.owners.lookup connID with
  | none => b
  | some o => { b with ledger := b.ledger.modify o.number change }

def bytesWritten (effects : List Effect) : Nat := (effects.flatMap Effect.written).length

section
variable (S : Strings) (cfg : Config) (a : Call)

variable (t : Transport)

def admitted (token : Text) : Bool := asAnon cfg t token || a.verdict = .accepted

def direct (isAnon : Bool) (pool : Pool) (f : UploadFrame) : Bool :=
  match hostAndPort (text f.target) with
  | none => false
  | some (host, port) =>
    match route S cfg a.toAround isAnon host port f.payload with
    | .primary => (getOrCreate a.connects pool f.connID host port none).found.isSome
    | _ => false

def opens (isAnon : Bool) (pool : Pool) (f : UploadFrame) : Bool :=
  match hostAndPort (text f.target), t with
  | none, _ => false
  | some (host, port), .http =>
    match route S cfg a.toAround isAnon host port f.payload with
    | .refused => false
    | .peer _ => true
    | .primary => (pool.lookup f.connID).isNone && (dialable port && a.connects || (fallbackPeer S cfg a.toAround).isSome)
  | some (host, port), .sncu =>
    !cfg.refuses S false host && (pool.lookup f.connID).isNone && dialable port && a.connects

/-- An upload frame, with the user of its request: what the pool does, the session that it may
    open, the country of a client that reaches its target from here, and the bytes written. -/
def uploaded (b : Books) (t : Transport) (user : Text) (r : Request) (f : UploadFrame) : Books :=
  let isAnon := asAnon cfg t r.token
  let served := serve S cfg a t b.pool r
  let connects := admitted cfg a t r.token && f.seq = 0
  let enrolled := if connects && opens S cfg a t isAnon b.pool f then b.enrol f.connID user else b
  let located :=
    if connects && t = .http && b.stats.isSome && direct S cfg a isAnon b.pool f && clientCC S cfg a.toAround ≠ [] then
      enrolled.setCountry f.connID (clientCC S cfg a.toAround)
    else enrolled
  Books.post { located with pool := served.1 } f.connID
    (fun e => { e with written := e.written + bytesWritten served.2.effects })

/-- A request, with the user that the validator found for its token. A stream is numbered and
    stays open. -/
def request (b : Books) (t : Transport) (username : Text) (r : Request) (id : Nat) : Books :=
  let user := if asAnon cfg t r.token then [] else username
  match r.frame with
  | none => b
  | some (.upload f) => uploaded S cfg a b t user r f
  | some (.stream connID) =>
    if t = .http && admitted cfg a t r.token && (get b.pool connID).isSome then
      { b with streams := b.streams.insert id ⟨user,connID⟩ }
    else b

end

def markTargetClosed : Pool :=
  match pool.lookup connID with
  | none => pool
  | some p => pool.insert connID { p with targetClosed := true }

def record (s : Stream) (n : Nat) : Books :=
  match b.stats, b.pool.lookup s.connID, b.owners.lookup s.connID with
  | some sc, some p, some o =>
    Books.post { b with stats := some (recordBytes sc b.clock s.username o.country p.session.bytesUp n) } s.connID
      (fun e => { e with recorded := e.recorded + if s.username = [] then 0 else p.session.bytesUp })
  | _, _, _ => b

def streamEnds (id n : Nat) (targetClosed : Bool) : Books :=
  match b.streams.lookup id with
  | none => b
  | some s =>
    let b := { b with
      streams := b.streams.erase id
      pool := if targetClosed then markTargetClosed b.pool s.connID else b.pool }
    if 0 < n then record b s n else b

inductive Event
  | request (cfg : Config) (call : Call) (t : Transport) (username : Text) (r : Request) (id : Nat)
  | streamEnds (id n : Nat) (targetClosed : Bool)
  | evict (connID : ConnID)
  | reset (connID : ConnID)
  | waits (d : Nat)

def step (S : Strings) (b : Books) : Event → Books × Unit
  | .request cfg call t username r id => (request S cfg call b t username r id,())
  | .streamEnds id n targetClosed => (streamEnds b id n targetClosed,())
  | .evict connID => ({ b with pool := b.pool.erase connID },())
  | .reset connID => ({ b with pool := resetConn b.pool connID },())
  | .waits d => ({ b with clock := b.clock + d },())

def fresh (stats : Bool) (clock : Int) : Books := ⟨clock,∅,∅,∅,if stats then some newStatsCollector else none,[]⟩

def buffered (s : Session) : Nat := (s.reorderBuf.entries.map (fun x => x.2.length)).sum

/-- No frame with a payload comes twice: its number is not below the next one, and it does not
    wait already. A stream that records something is that of the user who opened the
    connection, the first of it to record anything, and no bytes wait then. -/
def Fair : Event → Prop
  | .request cfg call .http _ r _ => admitted cfg call .http r.token = true → ∀ f p, r.frame = some (.upload f) →
      f.seq ≠ 0 → f.payload ≠ [] → b.pool.lookup f.connID = some p →
        p.session.reorderNext ≤ f.seq ∧ p.session.reorderBuf.lookup f.seq = none
  | .streamEnds id n _ => b.stats.isSome = true → 0 < n → ∀ s p o e, b.streams.lookup id = some s → s.username ≠ [] →
      b.pool.lookup s.connID = some p → b.owners.lookup s.connID = some o → b.ledger[o.number]? = some e →
        o.username = s.username ∧ e.recorded = 0 ∧ buffered p.session = 0
  | _ => True

section
variable {value : Entry → Nat} {u : Text} {ledger : List Entry} {e : Entry} {k : Nat} {change : Entry → Entry}

theorem sumOf_append : sumOf value u (ledger ++ [e]) = sumOf value u ledger + if e.owner = u then value e else 0 := by
  simp [sumOf]

theorem sumOf_modify (there : ledger[k]? = some e) (same : (change e).owner = e.owner) :
    sumOf value u (ledger.modify k change) + (if e.owner = u then value e else 0) =
      sumOf value u ledger + if e.owner = u then value (change e) else 0 := by
  induction ledger generalizing k with
  | nil => cases there
  | cons first rest ih =>
    cases k with
    | zero =>
      grind [sumOf]
    | succ k =>
      have later := ih (by simpa using there)
      simp only [sumOf,modify_succ_cons,map_cons,sum_cons] at later ⊢
      omega

theorem sumOf_le {other : Entry → Nat} (le : ∀ e ∈ ledger, value e ≤ other e) : sumOf value u ledger ≤ sumOf other u ledger := by
  induction ledger with
  | nil => exact le_refl _
  | cons first rest ih =>
    grind [sumOf]

end

section
variable {s : Session} {seq : Nat} {data : List UInt8}

theorem buffered_insert (new : s.reorderBuf.lookup seq = none) :
    buffered { s with reorderBuf := s.reorderBuf.insert seq data } = buffered s + data.length := by
  have absent : seq ∉ s.reorderBuf.entries.keys := fun member => by
    have found := AList.lookup_isSome.mpr (AList.mem_keys.mpr member)
    simp [new] at found
  grind [buffered,AList.entries_insert,kerase_of_notMem_keys]

theorem buffered_erase (found : s.reorderBuf.lookup seq = some data) (next : Nat) :
    buffered { s with reorderBuf := s.reorderBuf.erase seq, reorderNext := next } + data.length = buffered s := by
  have member : seq ∈ s.reorderBuf.entries.keys := AList.mem_keys.mp (AList.lookup_isSome.mp (by simp [found]))
  obtain ⟨own,before,after,absent,whole,rest⟩ := exists_of_kerase member
  have same : own = data := by
    have there : (⟨seq,own⟩ : Sigma fun _ : Nat => List UInt8) ∈ s.reorderBuf.entries := by simp [whole]
    exact Option.some.inj ((AList.mem_lookup_iff.mpr there).symm.trans found)
  subst same
  have erased : (s.reorderBuf.erase seq).entries = before ++ after := rest
  simp only [buffered,erased,whole,map_append,map_cons,sum_append,sum_cons]
  omega

theorem drain_bytes (fuel : Nat) (s : Session) (fine : (drain fuel s).error = none) :
    (drain fuel s).wrote.length + buffered (drain fuel s).session = buffered s ∧
      (drain fuel s).session.bytesUp = s.bytesUp := by
  induction fuel generalizing s with
  | zero => simp [drain]
  | succ fuel ih =>
    cases found : s.reorderBuf.lookup s.reorderNext with
    | none => simp [drain,found]
    | some next =>
      by_cases stuck : next ≠ [] ∧ s.writable = false
      · simp [drain,found,stuck] at fine
      · have taken := buffered_erase found ((s.reorderNext + 1) % 2 ^ 32)
        simp only [drain,found,if_neg stuck] at fine ⊢
        grind

theorem deliver_bytes (early : s.reorderNext ≤ seq) (new : s.reorderBuf.lookup seq = none)
    (fine : (deliverInOrder s seq data).error = none) :
    (deliverInOrder s seq data).wrote.length + buffered (deliverInOrder s seq data).session = buffered s + data.length ∧
      (deliverInOrder s seq data).session.bytesUp = s.bytesUp := by
  unfold deliverInOrder at fine ⊢
  grind [buffered_insert,drain_bytes,buffered]

end

/-- What a frame does with the connection that it names, once that is open, and the bytes that
    it writes: nothing; it is delivered in order over HTTP; the connection is closed; or the
    payload is written at once. -/
inductive Moved (t : Transport) (pool : Pool) (f : UploadFrame) : Pool → Nat → Prop
  | stays : Moved t pool f pool 0
  | delivered {p : Pooled} (http : t = .http) (later : f.seq ≠ 0) (filled : f.payload ≠ [])
      (found : pool.lookup f.connID = some p) (fine : (deliverInOrder p.session f.seq f.payload).error = none) :
      Moved t pool f
        (pool.insert f.connID
          { p with session := { (deliverInOrder p.session f.seq f.payload).session with
              bytesUp := (deliverInOrder p.session f.seq f.payload).session.bytesUp + f.payload.length } })
        (deliverInOrder p.session f.seq f.payload).wrote.length
  | closed (n : Nat) : Moved t pool f (pool.erase f.connID) n
  | exchanged {p : Pooled} (found : pool.lookup f.connID = some p) :
      Moved t pool f
        (pool.insert f.connID { p with session := { p.session with bytesUp := p.session.bytesUp + f.payload.length } })
        f.payload.length

def Begun (f : UploadFrame) (new : Bool) (mid : Pool) : Prop :=
  if new then ∃ p : Pooled, p.session = .fresh ∧ mid = pool.insert f.connID p else mid = pool

section
variable {S : Strings} {cfg : Config} {a : Call} {pool : Pool} {f : UploadFrame}

theorem bytesWritten_wrote (conn : Conn) (data : List UInt8) : bytesWritten [.wrote conn data] = data.length := by
  simp [bytesWritten,Effect.written]

theorem bytesWritten_append (first second : List Effect) :
    bytesWritten (first ++ second) = bytesWritten first + bytesWritten second := by
  simp [bytesWritten]

theorem upload_moved (later : f.seq ≠ 0) :
    Moved .http pool f (upload pool f).1 (bytesWritten (upload pool f).2.effects) := by
  unfold upload
  cases found : pool.lookup f.connID with
  | none => exact .stays
  | some p =>
    by_cases filled : f.payload = []
    · simp only [filled]
      exact .stays
    · simp only [filled,if_false]
      cases fine : (deliverInOrder p.session f.seq f.payload).error with
      | some _ => exact .closed _
      | none =>
        simp only [bytesWritten_wrote]
        exact .delivered rfl later filled found fine

theorem exchange_moved {p : Pooled} (t : Transport) (found : pool.lookup f.connID = some p) :
    Moved t pool f (exchange a pool p f).1 (bytesWritten (exchange a pool p f).2.effects) := by
  unfold exchange
  by_cases filled : f.payload ≠ []
  · rw [if_pos filled]
    by_cases writable : p.session.writable = true
    · rw [if_pos writable]
      simp only [bytesWritten_wrote]
      exact .exchanged found
    · rw [if_neg writable]
      exact .closed 0
  · split_ifs
    · exact .stays
    · exact .stays

theorem getOrCreate_begun (connects : Bool) (pool : Pool) (f : UploadFrame) (host : Text) (port : Int)
    (opened : Option (List HostRule)) :
    Begun pool f ((pool.lookup f.connID).isNone && dialable port && connects)
        (getOrCreate connects pool f.connID host port opened).pool ∧
      bytesWritten (getOrCreate connects pool f.connID host port opened).effects = 0 ∧
      ((getOrCreate connects pool f.connID host port opened).found.isSome =
        ((pool.lookup f.connID).isSome || dialable port && connects)) := by
  unfold getOrCreate
  cases found : pool.lookup f.connID with
  | some p => simp [Begun,bytesWritten]
  | none =>
    cases port_ : dialable port with
    | false => simp [Begun,bytesWritten]
    | true =>
      cases connects with
      | false => simp [Begun,bytesWritten,Effect.written]
      | true => exact ⟨⟨_,rfl,rfl⟩,rfl,rfl⟩

theorem connect_begun (S : Strings) (cfg : Config) (a : Call) (isAnon : Bool) (pool : Pool) (f : UploadFrame) :
    Begun pool f (opens S cfg a .http isAnon pool f) (connect S cfg a isAnon pool f).1 ∧
      bytesWritten (connect S cfg a isAnon pool f).2.effects = 0 := by
  unfold connect opens
  cases named : hostAndPort (text f.target) with
  | none => exact ⟨rfl,rfl⟩
  | some target =>
    obtain ⟨host,port⟩ := target
    dsimp only
    cases goes : route S cfg a.toAround isAnon host port f.payload with
    | refused => exact ⟨rfl,rfl⟩
    | peer q => exact ⟨⟨_,rfl,rfl⟩,rfl⟩
    | primary =>
      obtain ⟨begun,quiet,found⟩ := getOrCreate_begun a.connects pool f host port (openedBy cfg isAnon)
      cases there : (getOrCreate a.connects pool f.connID host port (openedBy cfg isAnon)).found with
      | some p =>
        refine ⟨?_,quiet⟩
        rw [there] at found
        cases known : pool.lookup f.connID with
        | some q => simpa [known] using begun
        | none =>
          grind
      | none =>
        rw [there] at found
        obtain ⟨known,dials⟩ : (pool.lookup f.connID).isSome = false ∧ (dialable port && a.connects) = false := by
          simpa [Bool.or_eq_false_iff] using found.symm
        have same : (getOrCreate a.connects pool f.connID host port (openedBy cfg isAnon)).pool = pool := by
          simpa [Begun,Bool.and_assoc,dials] using begun
        cases falls : fallbackPeer S cfg a.toAround with
        | some q =>
          have none_ : pool.lookup f.connID = none := by simpa using known
          refine ⟨?_,quiet⟩
          simp only [none_,same,Option.isSome_some,Bool.or_true]
          exact ⟨_,rfl,rfl⟩
        | none =>
          refine ⟨?_,quiet⟩
          simpa [dials,Begun] using same

theorem sncuConnect_begun : ∃ mid, Begun pool f (opens S cfg a .sncu false pool f) mid ∧
    Moved .sncu mid f (sncuConnect S cfg a pool f).1 (bytesWritten (sncuConnect S cfg a pool f).2.effects) := by
  unfold sncuConnect opens
  cases named : hostAndPort (text f.target) with
  | none => exact ⟨pool,rfl,.stays⟩
  | some target =>
    obtain ⟨host,port⟩ := target
    dsimp only
    cases refused : cfg.refuses S false host with
    | true => exact ⟨pool,rfl,.stays⟩
    | false =>
      obtain ⟨begun,quiet,_⟩ := getOrCreate_begun a.connects pool f host port none
      have kept := (@getOrCreate_spec (fun _ _ _ => True) f.connID a.connects pool host port none (fun _ => trivial)).2
      refine ⟨_,by simpa [Bool.and_assoc] using begun,?_⟩
      simp only [Bool.false_eq_true,if_false]
      cases found : (getOrCreate a.connects pool f.connID host port none).found with
      | none =>
        simp only [quiet]
        exact .stays
      | some p =>
        simp only [bytesWritten_append,quiet,Nat.zero_add]
        exact exchange_moved .sncu (kept p found)

theorem serve_moved {t : Transport} {r : Request} (frame : r.frame = some (.upload f)) :
    admitted cfg a t r.token = false ∧ (serve S cfg a t pool r).1 = pool ∧
        bytesWritten (serve S cfg a t pool r).2.effects = 0 ∨
      admitted cfg a t r.token = true ∧
        ∃ mid, Begun pool f (f.seq = 0 && opens S cfg a t (asAnon cfg t r.token) pool f) mid ∧
          Moved t mid f (serve S cfg a t pool r).1 (bytesWritten (serve S cfg a t pool r).2.effects) := by
  cases t with
  | http =>
    have served (isAnon : Bool) : ∃ mid, Begun pool f (f.seq = 0 && opens S cfg a .http isAnon pool f) mid ∧
        Moved .http mid f (tunnelFrame S cfg a isAnon pool r.frame).1
          (bytesWritten (tunnelFrame S cfg a isAnon pool r.frame).2.effects) := by
      simp only [frame,tunnelFrame]
      by_cases first : f.seq = 0
      · obtain ⟨begun,quiet⟩ := connect_begun S cfg a isAnon pool f
        simp only [first,if_true,quiet]
        exact ⟨_,begun,.stays⟩
      · simp only [first]
        exact ⟨pool,rfl,upload_moved first⟩
    cases anon : cfg.isAnon r.token with
    | true => exact .inr ⟨by simp [admitted,asAnon,anon],by simpa [serve,handleTunnel,asAnon,anon] using served true⟩
    | false =>
      cases verdict : a.verdict with
      | accepted =>
        exact .inr ⟨by simp [admitted,verdict],by simpa [serve,handleTunnel,asAnon,anon,verdict] using served false⟩
      | denied =>
        grind [admitted,asAnon,serve,handleTunnel,send404,bytesWritten]
      | transient => grind [admitted,asAnon,serve,handleTunnel,bytesWritten]
  | sncu =>
    cases verdict : a.verdict with
    | denied => exact .inl (by simp [admitted,asAnon,verdict,serve,sncuHandle,send404,bytesWritten])
    | transient => grind [admitted,asAnon,serve,sncuHandle,bytesWritten]
    | accepted =>
      refine .inr ⟨by simp [admitted,verdict],?_⟩
      simp only [serve,sncuHandle,verdict,frame,sncuFrame]
      by_cases first : f.seq = 0
      · simp only [first]
        exact sncuConnect_begun
      · simp only [first]
        refine ⟨pool,rfl,?_⟩
        cases found : get pool f.connID with
        | none => exact .stays
        | some p => exact exchange_moved .sncu (get_eq_some found)

end

/-- Every session of the pool has its entry, with all that it has counted written or waiting;
    no entry has more recorded than written; and what is recorded for a user is what the
    entries of that user have. -/
structure Balanced (b : Books) : Prop where
  numbered : ∀ c o, b.owners.lookup c = some o → ∃ e, b.ledger[o.number]? = some e ∧ e.owner = o.username
  pooled : ∀ c p, b.pool.lookup c = some p → ∃ o, b.owners.lookup c = some o ∧
    ∀ e, b.ledger[o.number]? = some e → p.session.bytesUp ≤ e.written + buffered p.session
  covered : ∀ (k : Nat) (e : Entry), b.ledger[k]? = some e → e.recorded ≤ e.written
  recorded : ∀ sc u, b.stats = some sc → sc.up u = sumOf Entry.recorded u b.ledger

theorem Balanced.le {b : Books} (balanced : Balanced b) (u : Text) : b.recordedFor u ≤ b.writtenFor u := by
  cases there : b.stats with
  | none => simp [Books.recordedFor,there]
  | some sc =>
    have sums : sumOf Entry.recorded u b.ledger ≤ sumOf Entry.written u b.ledger := by
      refine sumOf_le ?_
      intro e member
      obtain ⟨k,found⟩ := mem_iff_getElem?.mp member
      exact balanced.covered k e found
    grind [Books.recordedFor,Books.writtenFor,balanced.recorded]

variable {change : Entry → Entry}

theorem getElem?_modify {ledger : List Entry} {i k : Nat} {e : Entry}
    (found : (ledger.modify k change)[i]? = some e) :
    ∃ old, ledger[i]? = some old ∧ (i = k ∧ e = change old ∨ i ≠ k ∧ e = old) := by
  rw [List.getElem?_modify] at found
  grind

theorem Balanced.numbered_modify {b : Books} (balanced : Balanced b) (k : Nat)
    (same : ∀ e, (change e).owner = e.owner) {c : ConnID} {o : Owner} (found : b.owners.lookup c = some o) :
    ∃ e, (b.ledger.modify k change)[o.number]? = some e ∧ e.owner = o.username := by
  grind [balanced.numbered]

section
variable {b : Books} {c : ConnID} {username : Text}

theorem Balanced.enrol (balanced : Balanced b) {p : Pooled} (fresh : p.session = .fresh) :
    Balanced { b.enrol c username with pool := b.pool.insert c p } := by
  have before : ∀ (k : Nat) (e : Entry), b.ledger[k]? = some e → (b.ledger ++ [⟨username,0,0⟩])[k]? = some e := by
    intro k e found
    rw [List.getElem?_append_left (List.getElem?_eq_some_iff.mp found).1]
    exact found
  have after : ∀ (k : Nat) (e : Entry), (b.ledger ++ [(⟨username,0,0⟩ : Entry)])[k]? = some e →
      b.ledger[k]? = some e ∨ e = ⟨username,0,0⟩ := by
    intro k e found
    rcases Nat.lt_or_ge k b.ledger.length with inside | outside
    · rw [List.getElem?_append_left inside] at found
      exact .inl found
    grind [Option.some.inj]
  refine ⟨?_,?_,?_,?_⟩
  · intro c' o found
    rcases of_lookup_insert found with ⟨_,rfl⟩ | ⟨_,old⟩
    · exact ⟨⟨username,0,0⟩,by simp [Books.enrol],rfl⟩
    · obtain ⟨e,there,owner⟩ := balanced.numbered c' o old
      exact ⟨e,before _ _ there,owner⟩
  · intro c' p' found
    rcases of_lookup_insert found with ⟨rfl,rfl⟩ | ⟨other,old⟩
    · refine ⟨_,AList.lookup_insert _,?_⟩
      intro e _
      rw [fresh]
      exact Nat.zero_le _
    · obtain ⟨o,owner,counted⟩ := balanced.pooled c' p' old
      refine ⟨o,(AList.lookup_insert_ne other).trans owner,?_⟩
      intro e there
      obtain ⟨e',there',_⟩ := balanced.numbered c' o owner
      obtain rfl : e' = e := Option.some.inj ((before _ _ there').symm.trans there)
      exact counted e' there'
  · intro k e found
    rcases after k e found with old | rfl
    · exact balanced.covered k e old
    · exact le_refl 0
  · intro sc u stats
    rw [balanced.recorded sc u stats]
    simp [Books.enrol,sumOf_append]

theorem Balanced.setCountry (balanced : Balanced b) (cc : Text) : Balanced (b.setCountry c cc) := by
  unfold Books.setCountry
  cases owner : b.owners.lookup c with
  | none => exact balanced
  | some o =>
    refine ⟨?_,?_,balanced.covered,balanced.recorded⟩
    · grind [balanced.numbered]
    grind [balanced.pooled]

def Counts (pool : Pool) (c : ConnID) (n : Nat) (pool' : Pool) : Prop :=
  ∀ c' p, pool'.lookup c' = some p → ∃ old, pool.lookup c' = some old ∧
    p.session.bytesUp + buffered old.session ≤ old.session.bytesUp + buffered p.session + if c' = c then n else 0

variable {pool pool' : Pool} {n : Nat}

theorem Counts.of_session
    (same : ∀ c' p, pool'.lookup c' = some p → ∃ old, pool.lookup c' = some old ∧ p.session.bytesUp = old.session.bytesUp ∧
      buffered p.session = buffered old.session) : Counts pool c 0 pool' := by
  intro c' p found
  grind

theorem Counts.insert {old p : Pooled} (found : pool.lookup c = some old)
    (counted : p.session.bytesUp + buffered old.session ≤ old.session.bytesUp + buffered p.session + n) :
    Counts pool c n (pool.insert c p) := by
  intro c' p' found'
  grind

theorem Moved.counts {t : Transport} {f : UploadFrame} (moved : Moved t pool f pool' n)
    (new : t = .http → f.seq ≠ 0 → f.payload ≠ [] → ∀ p, pool.lookup f.connID = some p →
      p.session.reorderNext ≤ f.seq ∧ p.session.reorderBuf.lookup f.seq = none) : Counts pool f.connID n pool' := by
  cases moved with
  | stays => exact .of_session (fun c' p found => ⟨p,found,rfl,rfl⟩)
  | closed =>
    intro c' p found
    exact ⟨p,(of_lookup_erase found).2,by omega⟩
  | @delivered p http later filled found fine =>
    obtain ⟨early,absent⟩ := new http later filled _ found
    obtain ⟨bytes,up⟩ := deliver_bytes early absent fine
    refine .insert found ?_
    show (deliverInOrder p.session f.seq f.payload).session.bytesUp + f.payload.length + buffered p.session ≤
      p.session.bytesUp + buffered (deliverInOrder p.session f.seq f.payload).session + _
    omega
  | @exchanged p found =>
    refine .insert found ?_
    grind [buffered]

theorem Balanced.wrote (balanced : Balanced b) (counts : Counts b.pool c n pool') :
    Balanced (Books.post { b with pool := pool' } c (fun e => { e with written := e.written + n })) := by
  unfold Books.post
  cases owner : b.owners.lookup c with
  | none =>
    refine ⟨balanced.numbered,?_,balanced.covered,balanced.recorded⟩
    intro c' p found
    obtain ⟨old,there,grown⟩ := counts c' p found
    obtain ⟨o,owner',counted⟩ := balanced.pooled c' old there
    refine ⟨o,owner',?_⟩
    intro e entry
    have other : c' ≠ c := by
      rintro rfl
      cases owner.symm.trans owner'
    have before := counted e entry
    rw [if_neg other] at grown
    omega
  | some o =>
    refine ⟨?_,?_,?_,?_⟩
    · intro c' o' found
      refine balanced.numbered_modify o.number ?_ found
      intro e
      rfl
    · intro c' p found
      obtain ⟨old,there,grown⟩ := counts c' p found
      obtain ⟨o',owner',counted⟩ := balanced.pooled c' old there
      grind
    · intro k e entry
      obtain ⟨e₀,entry₀,⟨_,rfl⟩ | ⟨_,rfl⟩⟩ := getElem?_modify entry
      · exact Nat.le_add_right_of_le (balanced.covered k e₀ entry₀)
      · exact balanced.covered k e entry₀
    · grind [balanced.numbered,sumOf_modify,balanced.recorded]

theorem Balanced.withPool (balanced : Balanced b) (counts : Counts b.pool c 0 pool') :
    Balanced { b with pool := pool' } := by
  refine ⟨balanced.numbered,?_,balanced.covered,balanced.recorded⟩
  intro c' p found
  obtain ⟨old,there,grown⟩ := counts c' p found
  grind [balanced.pooled]

theorem Balanced.record {s : Stream} (balanced : Balanced b) (n : Nat)
    (once : b.stats.isSome = true → s.username ≠ [] → ∀ p o e, b.pool.lookup s.connID = some p → b.owners.lookup s.connID = some o →
      b.ledger[o.number]? = some e → o.username = s.username ∧ e.recorded = 0 ∧ buffered p.session = 0) :
    Balanced (record b s n) := by
  unfold Accounting.record
  cases stats : b.stats with
  | none => exact balanced
  | some sc =>
    cases found : b.pool.lookup s.connID with
    | none => exact balanced
    | some p =>
      obtain ⟨o,owner,counted⟩ := balanced.pooled _ p found
      obtain ⟨e,entry,own⟩ := balanced.numbered _ o owner
      simp only [Books.post,owner]
      refine ⟨?_,?_,?_,?_⟩
      · intro c' o' found'
        refine balanced.numbered_modify o.number ?_ found'
        intro e
        rfl
      · intro c' p' found'
        obtain ⟨o',owner',counted'⟩ := balanced.pooled c' p' found'
        refine ⟨o',owner',?_⟩
        intro after entry'
        obtain ⟨before,there,⟨_,rfl⟩ | ⟨_,rfl⟩⟩ := getElem?_modify entry'
        · exact counted' before there
        · exact counted' after there
      · intro k after entry'
        obtain ⟨before,there,⟨rfl,rfl⟩ | ⟨_,rfl⟩⟩ := getElem?_modify entry'
        · obtain rfl : e = before := Option.some.inj (entry.symm.trans there)
          have covered := balanced.covered _ e entry
          grind
        · exact balanced.covered k after there
      · intro sc' u stats'
        obtain rfl := Option.some.inj stats'
        have sums := @sumOf_modify Entry.recorded u b.ledger e o.number
          (fun e => { e with recorded := e.recorded + if s.username = [] then 0 else p.session.bytesUp }) entry rfl
        have before := balanced.recorded sc u stats
        rw [up_recordBytes]
        by_cases nobody : s.username = []
        · simp only [nobody,if_true,Nat.add_zero,ne_eq,not_true_eq_false,and_false,if_false] at sums ⊢
          omega
        · obtain ⟨opener,_,_⟩ := once (by simp [stats]) nobody p o e found owner entry
          rw [own,opener] at sums
          simp only [nobody,if_false,ne_eq,not_false_eq_true,and_true] at sums ⊢
          by_cases mine : s.username = u
          · simp only [if_pos mine,if_pos mine.symm] at sums ⊢
            omega
          · simp only [if_neg mine,if_neg (Ne.symm mine)] at sums ⊢
            omega

end

theorem markTargetClosed_lookup {pool : Pool} {c c' : ConnID} {p : Pooled} (found : (markTargetClosed pool c).lookup c' = some p) :
    ∃ old, pool.lookup c' = some old ∧ p.session = old.session := by
  unfold markTargetClosed at found
  grind

theorem resetConn_counts (c : ConnID) : Counts pool c 0 (resetConn pool c) := by
  unfold resetConn
  cases there : pool.lookup c with
  | none => exact .of_session (fun c' p found => ⟨p,found,rfl,rfl⟩)
  | some old => exact .insert there (le_refl _)

theorem setCountry_withPool (c : ConnID) (cc : Text) (pool : Pool) :
    { b.setCountry c cc with pool := pool } = Books.setCountry { b with pool := pool } c cc := by
  unfold Books.setCountry
  cases b.owners.lookup c <;> rfl

section
variable {S : Strings} {cfg : Config} {a : Call} {b : Books} {t : Transport} {f : UploadFrame}

theorem Balanced.begun {new : Bool} {mid : Pool} (balanced : Balanced b) (user : Text)
    (begun : Begun b.pool f new mid) :
    Balanced { (if new then b.enrol f.connID user else b) with pool := mid } := by
  cases new with
  | true =>
    obtain ⟨p,fresh,rfl⟩ := begun
    exact balanced.enrol fresh
  | false =>
    obtain rfl : mid = b.pool := begun
    exact balanced

theorem uploaded_balanced {r : Request} (frame : r.frame = some (.upload f)) (user : Text) (balanced : Balanced b)
    (new : admitted cfg a t r.token = true → t = .http → f.seq ≠ 0 → f.payload ≠ [] → ∀ p, b.pool.lookup f.connID = some p →
      p.session.reorderNext ≤ f.seq ∧ p.session.reorderBuf.lookup f.seq = none) :
    Balanced (uploaded S cfg a b t user r f) := by
  unfold uploaded
  rcases @serve_moved S cfg a b.pool f t r frame with ⟨refused,same,quiet⟩ | ⟨admitted_,mid,begun,moved⟩
  · simp only [refused,same,quiet]
    exact balanced.wrote (.of_session (fun c' p found => ⟨p,found,rfl,rfl⟩))
  · have once : t = .http → f.seq ≠ 0 → f.payload ≠ [] → ∀ p, mid.lookup f.connID = some p →
        p.session.reorderNext ≤ f.seq ∧ p.session.reorderBuf.lookup f.seq = none := by
      grind [Begun]
    have counts := moved.counts once
    have opened := balanced.begun user begun
    simp only [admitted_]
    split
    case isTrue =>
      have located := opened.setCountry (c := f.connID) (clientCC S cfg a.toAround)
      rw [← setCountry_withPool] at located
      exact located.wrote counts
    case isFalse => exact opened.wrote counts

theorem request_balanced (username : Text) (r : Request) (id : Nat) (balanced : Balanced b)
    (fair : Fair b (.request cfg a t username r id)) : Balanced (request S cfg a b t username r id) := by
  unfold request
  cases frame : r.frame with
  | none => exact balanced
  | some kind =>
    cases kind with
    | upload f =>
      refine uploaded_balanced frame _ balanced ?_
      rintro admitted_ rfl later filled p found
      exact fair admitted_ f p frame later filled found
    | stream connID =>
      dsimp only
      split
      · exact ⟨balanced.numbered,balanced.pooled,balanced.covered,balanced.recorded⟩
      · exact balanced

theorem streamEnds_balanced (id n : Nat) (targetClosed : Bool) (balanced : Balanced b)
    (fair : Fair b (.streamEnds id n targetClosed)) : Balanced (streamEnds b id n targetClosed) := by
  unfold streamEnds
  cases stream : b.streams.lookup id with
  | none => exact balanced
  | some s =>
    -- the session that the end of the stream finds is the one of before, marked or not
    have marked : ∀ c p, (if targetClosed then markTargetClosed b.pool s.connID else b.pool).lookup c = some p →
        ∃ old, b.pool.lookup c = some old ∧ p.session = old.session := by
      grind [markTargetClosed_lookup]
    have ended : Balanced { b with
        streams := b.streams.erase id
        pool := if targetClosed then markTargetClosed b.pool s.connID else b.pool } := by
      have kept := balanced.withPool (c := s.connID) (.of_session (fun c p found => by
        obtain ⟨old,there,same⟩ := marked c p found
        exact ⟨old,there,by rw [same],by rw [same]⟩))
      exact ⟨kept.numbered,kept.pooled,kept.covered,kept.recorded⟩
    dsimp only
    split
    case isTrue sent =>
      refine ended.record n ?_
      intro stats somebody p o e found owner entry
      obtain ⟨old,there,same⟩ := marked _ p found
      rw [same]
      exact fair stats sent s old o e stream somebody there owner entry
    case isFalse => exact ended

theorem step_balanced (b : Books) (i : Event) (fair : Fair b i) (balanced : Balanced b) : Balanced (step S b i).1 := by
  cases i with
  | request cfg call t username r id => exact request_balanced username r id balanced fair
  | streamEnds id n targetClosed => exact streamEnds_balanced id n targetClosed balanced fair
  | evict connID => exact balanced.withPool (c := connID) (fun c p found => ⟨p,(of_lookup_erase found).2,by omega⟩)
  | reset connID => exact balanced.withPool (resetConn_counts b.pool connID)
  | waits d => exact ⟨balanced.numbered,balanced.pooled,balanced.covered,balanced.recorded⟩

end

theorem fresh_balanced (stats : Bool) (clock : Int) : Balanced (fresh stats clock) := by
  refine ⟨?_,?_,?_,?_⟩
  · intro c o found
    cases found
  · intro c p found
    cases found
  · intro k e found
    cases found
  · intro sc u found
    cases stats with
    | false => cases found
    | true =>
      obtain rfl := Option.some.inj found
      rfl

/-- In every run in which no frame comes twice and each connection is recorded at most once, for
    the user who opened it and with nothing waiting, what was recorded as the uploads of a user
    is at no time more than what was written to that user's targets. -/
theorem recorded_le_written (S : Strings) (stats : Bool) (clock : Int) (events : List Event)
    (fair : Along (step S) Fair (fresh stats clock) events) (u : Text) :
    (final (step S) (fresh stats clock) events).recordedFor u ≤ (final (step S) (fresh stats clock) events).writtenFor u := by
  have balanced :=
    state_along (fun b i fair kept => step_balanced b i fair kept) fair (fresh_balanced stats clock)
  exact balanced.le u

def asked (plain : List UInt8) (id : Nat) : Event := .request .bare .alone .http "ann".toList ⟨[],some plain⟩ id

def threeBytes : List Event :=
  [asked (buildUploadPlain sampleID 0 (bytes "example.com:80".toList) []) 0,asked (buildUploadPlain sampleID 1 [] [1,2,3]) 0]

def streamed (id : Nat) : List Event := [asked (frameTypeStreamOpen :: sampleID.1) id,.streamEnds id 1 false]

theorem asked_frame (seq : Nat) (target data : List UInt8) (short : target.length < 65536) :
    Request.frame ⟨[],some (buildUploadPlain sampleID seq target data)⟩ = some (.upload ⟨sampleID,seq % 2 ^ 32,target,data⟩) :=
  readFrame_upload (parse_build sampleID seq target data short)

theorem threeBytes_fair : Along (step .ascii) Fair (fresh true 0) (threeBytes ++ streamed 0) := by
  -- what a value that is found shows
  have shown {α β : Type} {o : Option α} {f : α → β} {v : β} {w : α} (all : o.map f = some v) (found : o = some w) :
      f w = v := by
    rw [found] at all
    exact Option.some.inj all
  refine ⟨?_,?_,?_,?_,trivial⟩
  · intro _ f p frame later
    cases (asked_frame 0 (bytes "example.com:80".toList) [] (by decide)).symm.trans frame
    exact absurd rfl later
  · intro _ f p frame _ _ found
    cases (asked_frame 1 [] [1,2,3] (by decide)).symm.trans frame
    have session : ((final (step .ascii) (fresh true 0) (threeBytes.take 1)).pool.lookup sampleID).map
        (fun p => (p.session.reorderNext,p.session.reorderBuf.lookup 1)) = some (1,none) := by decide
    have state := shown session found
    obtain ⟨next,absent⟩ := Prod.mk.inj state
    exact ⟨next.le,absent⟩
  · intro _ f p frame
    have opened : Request.frame ⟨[],some (frameTypeStreamOpen :: sampleID.1)⟩ = some (.stream sampleID) := rfl
    cases opened.symm.trans frame
  · intro _ _ s p o e stream _ found owner entry
    have streams : ((final (step .ascii) (fresh true 0) (threeBytes ++ (streamed 0).take 1)).streams.lookup 0).map
        (fun s => (s.username,s.connID)) = some ("ann".toList,sampleID) := by decide
    have requested := shown streams stream
    obtain ⟨user,id⟩ := Prod.mk.inj requested
    rw [id] at found owner
    have waiting : ((final (step .ascii) (fresh true 0) (threeBytes ++ (streamed 0).take 1)).pool.lookup sampleID).map
        (fun p => buffered p.session) = some 0 := by decide
    have owners : ((final (step .ascii) (fresh true 0) (threeBytes ++ (streamed 0).take 1)).owners.lookup sampleID).map
        (fun o => (o.username,o.number)) = some ("ann".toList,0) := by decide
    have enrolled := shown owners owner
    obtain ⟨opener,number⟩ := Prod.mk.inj enrolled
    rw [number] at entry
    have entries : (final (step .ascii) (fresh true 0) (threeBytes ++ (streamed 0).take 1)).ledger[0]?.map Entry.recorded =
        some 0 := by decide
    have empty := shown waiting found
    exact ⟨opener.trans user.symm,shown entries entry,empty⟩

theorem recorded_le_written_once :
    (final (step .ascii) (fresh true 0) (threeBytes ++ streamed 0)).recordedFor "ann".toList = 3 ∧
      (final (step .ascii) (fresh true 0) (threeBytes ++ streamed 0)).recordedFor "ann".toList ≤
        (final (step .ascii) (fresh true 0) (threeBytes ++ streamed 0)).writtenFor "ann".toList :=
  ⟨by decide,recorded_le_written .ascii true 0 _ threeBytes_fair _⟩

/-- The client opens a second stream of the connection, and its three bytes are recorded again. -/
theorem recorded_again :
    ¬ ∀ (S : Strings) (stats : Bool) (clock : Int) (events : List Event) (u : Text),
      (final (step S) (fresh stats clock) events).recordedFor u ≤ (final (step S) (fresh stats clock) events).writtenFor u := by
  intro le
  have six : (final (step .ascii) (fresh true 0) (threeBytes ++ streamed 0 ++ streamed 1)).recordedFor "ann".toList = 6 := by
    decide
  have three : (final (step .ascii) (fresh true 0) (threeBytes ++ streamed 0 ++ streamed 1)).writtenFor "ann".toList = 3 := by
    decide
  have bound := le .ascii true 0 (threeBytes ++ streamed 0 ++ streamed 1) "ann".toList
  omega

end TunnelCat.Accounting
