import TunnelCat.Goroutines
import TunnelCat.Runs
import TunnelCat.Table

/-!
The connections that an exit opens (`snc-exit/sessions.go`, `udp_sessions.go`, `peer_conn.go`): those of its
TCP and UDP session pools, which dial outside their locks, and those of `dialBestPeer`, which races several
peers.
-/
namespace TunnelCat.ExitConns
open Goroutines Runs List

inductive Key
  | tcp (connID : String)
  | udp (connID dst : String)
deriving DecidableEq

structure Conn where
  key : Key
  num : Nat
deriving DecidableEq

structure Session where
  conn : Conn
  lastSeen : Int

/-- A call of `dialBestPeer`: the dials under way, the connections on which the request is, the
    channel, and what was received from it, by the call itself until it returns and then by the
    goroutine that drains the channel. -/
structure Race where
  key : Key
  candidates : Nat
  dialing : Nat
  requesting : List Conn
  ch : List (Option Conn)
  received : List (Option Conn)
  returned : Option (Option Conn)

structure Exit where
  opened : List Conn
  closed : List Conn
  pool : Table Key Session
  races : List Race

variable (e : Exit) (r : Race) (udp : Bool) (key : Key) (now : Int)

def Exit.fresh : Conn := ⟨key,e.opened.length⟩

def Exit.opens : Exit := { e with opened := e.opened ++ [e.fresh key] }

def Exit.closes (conns : List Conn) : Exit := { e with closed := conns ++ e.closed }

/-- Where a goroutine stands. The first three are `getOrCreate`, the next two `dialPeer`, and the last
    two `close`. -/
inductive Point
  | look (key : Key)
  | dial (key : Key)
  | insert (conn : Conn)
  | dialPeer (key : Key)
  | request (conn : Conn)
  | store (conn : Conn)
  | close (key : Key)
  | hangUp (conn : Conn)

def act (ok : Bool) (e : Exit) : Point → Ran Exit Point Unit
  | .look key =>
    match e.pool.lookup key with
    | some s => ⟨{ e with pool := e.pool.insert key { s with lastSeen := now } },none,[],[]⟩
    | none => ⟨e,some (.dial key),[],[]⟩
  | .dial key => if ok then ⟨e.opens key,some (.insert (e.fresh key)),[],[]⟩ else ⟨e,none,[],[]⟩
  | .insert conn =>
    match e.pool.lookup conn.key with
    | some s => ⟨{ e.closes [conn] with pool := e.pool.insert conn.key { s with lastSeen := now } },none,[],[]⟩
    | none => ⟨{ e with pool := e.pool.insert conn.key ⟨conn,now⟩ },none,[],[]⟩
  | .dialPeer key => if ok then ⟨e.opens key,some (.request (e.fresh key)),[],[]⟩ else ⟨e,none,[],[]⟩
  | .request conn => if ok then ⟨e,some (.store conn),[],[]⟩ else ⟨e.closes [conn],none,[],[]⟩
  | .store conn =>
    ⟨{ e.closes ((e.pool.lookup conn.key).map Session.conn).toList with pool := e.pool.insert conn.key ⟨conn,now⟩ },none,[],[]⟩
  | .close key =>
    ⟨{ e with pool := e.pool.erase key },(e.pool.lookup key).map (fun s => .hangUp s.conn),[],[]⟩
  | .hangUp conn => ⟨e.closes [conn],none,[],[]⟩

inductive Move
  | dialed (ok : Bool)
  | requested (i : Nat) (ok : Bool)
  | receive

def race : Move → Exit × Race × List Point
  | .dialed ok =>
    if r.dialing = 0 then (e,r,[])
    else if ok then
      (e.opens r.key,{ r with dialing := r.dialing - 1, requesting := r.requesting ++ [e.fresh r.key] },[])
    else (e,{ r with dialing := r.dialing - 1, ch := r.ch ++ [none] },[])
  | .requested i ok =>
    match r.requesting[i]? with
    | none => (e,r,[])
    | some conn =>
      let rest := r.requesting.eraseIdx i
      if ok then (e,{ r with requesting := rest, ch := r.ch ++ [some conn] },[])
      else (e.closes [conn],{ r with requesting := rest, ch := r.ch ++ [none] },[])
  | .receive =>
    match r.ch with
    | [] => (e,r,[])
    | result :: rest =>
      let after := { r with ch := rest, received := r.received ++ [result] }
      match r.returned, result with
      | none, some conn => (e,{ after with returned := some (some conn) },[.store conn])
      | none, none => (e,if after.received.length = r.candidates then { after with returned := some none } else after,[])
      | some _, some conn => (e.closes [conn],after,[])
      | some _, none => (e,after,[])

def dialBestPeer (candidates : Nat) : Race :=
  ⟨key,candidates,candidates,[],[],[],if candidates = 0 then some none else none⟩

def timeout : Key → Int
  | .tcp _ => 30000000000
  | .udp _ _ => 60000000000

def stale (key : Key) (s : Session) : Bool :=
  (match key with | .tcp _ => !udp | .udp _ _ => udp) && now - s.lastSeen > timeout key

def watchdog : Exit :=
  { e.closes ((e.pool.entries.filter (fun x => stale udp now x.1 x.2)).map (fun x => x.2.conn)) with
    pool := e.pool.filter (fun key s => !stale udp now key s) }

inductive Input
  | getOrCreate (key : Key)
  | storePeer (connID : String)
  | close (key : Key)
  | dialBestPeer (connID : String) (candidates : Nat)
  | watchdog (udp : Bool) (now : Int)
  | run (k : Nat) (now : Int) (ok : Bool)
  | race (k : Nat) (m : Move)

abbrev State := Pool Exit Point

def step (p : State) : Input → State × List Unit
  | .getOrCreate key => (p.start [.look key],[])
  | .storePeer connID => (p.start [.dialPeer (.tcp connID)],[])
  | .close key => (p.start [.close key],[])
  | .dialBestPeer connID candidates =>
    ({ p with state.races := p.state.races ++ [dialBestPeer (.tcp connID) candidates] },[])
  | .watchdog udp now => ({ p with state := watchdog p.state udp now },[])
  | .run k now ok => runAt (act now ok) p k
  | .race k m =>
    match p.state.races[k]? with
    | none => (p,[])
    | some r =>
      let (e,r',started) := race p.state r m
      (⟨{ e with races := e.races.set k r' },p.running ++ started⟩,[])

def start : State := ⟨⟨[],[],∅,[]⟩,[]⟩

/-- The connection is the one that the pool has for its key. -/
def Current (pool : Table Key Session) (c : Conn) : Prop := (pool.lookup c.key).map Session.conn = some c

def Settled (c : Conn) : Prop := Current e.pool c ∨ c ∈ e.closed

def Point.conn : Point → Option Conn
  | .insert conn => some conn
  | .request conn => some conn
  | .store conn => some conn
  | .hangUp conn => some conn
  | _ => none

def Race.Holds (c : Conn) : Prop := c ∈ r.requesting ∨ some c ∈ r.ch ∨ r.returned = some (some c)

def Accounted (p : State) (c : Conn) : Prop :=
  Settled p.state c ∨ (∃ t ∈ p.running, t.conn = some c) ∨ ∃ r ∈ p.state.races, r.Holds c

def Race.Over : Prop := r.dialing = 0 ∧ r.requesting = [] ∧ r.ch = []

/-- Every candidate has one result; the call returns the first success, and fails after the last
    failure. -/
structure Race.Fair (r : Race) : Prop where
  results : r.dialing + r.requesting.length + r.ch.length + r.received.length = r.candidates
  waits : r.returned = none → (∀ x ∈ r.received, x = none) ∧ r.received.length < r.candidates
  fails : r.returned = some none → (∀ x ∈ r.received, x = none) ∧ r.received.length = r.candidates
  wins : ∀ c, r.returned = some (some c) → some c ∈ r.received

variable {e} {p : State} {c : Conn} {key} {now} {ok : Bool} {t : Point} {r} {m : Move}

theorem current_insert {pool : Table Key Session} {s : Session} (current : Current pool c) (same : c.key = key → s.conn = c) :
    Current (pool.insert key s) c := by
  grind [Current]

theorem current_bump {s : Session} {pool : Table Key Session} (found : pool.lookup key = some s) (current : Current pool c) :
    Current (pool.insert key { s with lastSeen := now }) c := by
  grind [Current]

theorem settled_closes {conns : List Conn} (settled : Settled e c) : Settled (e.closes conns) c := by
  rcases settled with current | closed
  · exact .inl current
  · exact .inr (by simp [Exit.closes,closed])

theorem settled_act (settled : Settled e c) :
    Settled (act now ok e t).state c ∨ (act now ok e t).next.bind Point.conn = some c := by
  cases t with
  | look key =>
    cases found : e.pool.lookup key with
    | some s =>
      simp only [act,found]
      exact .inl (settled.imp_left (current_bump found))
    | none => exact .inl (by simpa [act,found] using settled)
  | dial key => cases ok <;> exact .inl settled
  | insert conn =>
    cases found : e.pool.lookup conn.key with
    | some s =>
      simp only [act,found]
      exact .inl ((settled_closes settled).imp_left (current_bump found))
    | none =>
      simp only [act,found]
      refine .inl (settled.imp_left (fun current => current_insert current ?_))
      intro same
      rw [Current,same,found] at current
      cases current
  | dialPeer key => cases ok <;> exact .inl settled
  | request conn =>
    cases ok
    · exact .inl (settled_closes settled)
    · exact .inl settled
  | store conn =>
    rcases settled with current | closed
    · by_cases same : c.key = conn.key
      · refine .inl (.inr ?_)
        grind [Current,act,Exit.closes]
      · exact .inl (.inl (current_insert current (fun here => absurd here same)))
    · exact .inl (.inr (by simp [act,Exit.closes,closed]))
  | close key =>
    rcases settled with current | closed
    · unfold Current at current
      by_cases same : c.key = key
      · grind [Option.map_eq_some_iff,act,Point.conn]
      · exact .inl (.inl (by simpa [act,Current,same] using current))
    · exact .inl (.inr closed)
  | hangUp conn => exact .inl (settled_closes settled)

theorem held_act (held : t.conn = some c) :
    Settled (act now ok e t).state c ∨ (act now ok e t).next.bind Point.conn = some c := by
  cases t with
  | insert conn =>
    obtain rfl : conn = c := by simpa [Point.conn] using held
    cases found : e.pool.lookup conn.key with
    | some s => exact .inl (.inr (by simp [act,found,Exit.closes]))
    | none => exact .inl (.inl (by simp [act,found,Current]))
  | request conn => cases ok <;> simp_all [act,Point.conn,Settled,Exit.closes]
  | store conn =>
    obtain rfl : conn = c := by simpa [Point.conn] using held
    exact .inl (.inl (by simp [act,Current]))
  | hangUp conn => simp_all [act,Point.conn,Settled,Exit.closes]
  | _ => cases held

theorem opened_act (opened : c ∈ (act now ok e t).state.opened) :
    c ∈ e.opened ∨ (act now ok e t).next.bind Point.conn = some c := by
  cases t with
  | look key => cases found : e.pool.lookup key <;> simp_all [act]
  | dial key => cases ok <;> simp_all [act,Point.conn,Exit.opens,eq_comm]
  | insert conn => cases found : e.pool.lookup conn.key <;> simp_all [act,Exit.closes]
  | dialPeer key => cases ok <;> simp_all [act,Point.conn,Exit.opens,eq_comm]
  | request conn => cases ok <;> simp_all [act,Exit.closes]
  | _ => exact .inl opened

theorem races_act : (act now ok e t).state.races = e.races := by
  cases t with
  | look key => cases found : e.pool.lookup key <;> simp [act,found]
  | insert conn => cases found : e.pool.lookup conn.key <;> simp [act,found,Exit.closes]
  | dial key => cases ok <;> rfl
  | dialPeer key => cases ok <;> rfl
  | request conn => cases ok <;> rfl
  | _ => rfl

theorem settled_watchdog (settled : Settled e c) : Settled (watchdog e udp now) c := by
  rcases settled with current | closed
  · unfold Current at current
    rw [Option.map_eq_some_iff] at current
    obtain ⟨s,found,own⟩ := current
    by_cases old : stale udp now c.key s
    · have listed : ⟨c.key,s⟩ ∈ e.pool.entries := AList.mem_lookup_iff.mp found
      refine .inr (mem_append_left _ (mem_map.mpr ⟨⟨c.key,s⟩,?_,own⟩))
      exact mem_filter.mpr ⟨listed,old⟩
    · exact .inl (by simp [watchdog,Current,Table.lookup_filter,found,old,own])
  · exact .inr (mem_append_right _ closed)

/-- What a move of a race does: no connection is lost to it, and its results stay in step. -/
structure Keeps (e : Exit) (r : Race) (e' : Exit) (r' : Race) : Prop where
  settled : ∀ c, Settled e c → Settled e' c
  held : ∀ c, r.Holds c → Settled e' c ∨ r'.Holds c
  opened : ∀ c ∈ e'.opened, c ∈ e.opened ∨ r'.Holds c
  races : e'.races = e.races
  fair : r.Fair → r'.Fair

theorem Race.Fair.moved (fair : r.Fair) {dialing : Nat} {requesting : List Conn} {ch : List (Option Conn)}
    (same : dialing + requesting.length + ch.length = r.dialing + r.requesting.length + r.ch.length) :
    Race.Fair { r with dialing := dialing, requesting := requesting, ch := ch } :=
  ⟨by rw [same]; exact fair.results,fair.waits,fair.fails,fair.wins⟩

theorem keeps_refl : Keeps e r e r := ⟨fun _ => id,fun _ => .inr,fun _ => .inl,rfl,id⟩

theorem keeps_dialed : Keeps e r (race e r (.dialed ok)).1 (race e r (.dialed ok)).2.1 := by
  by_cases none : r.dialing = 0
  · simpa [race,none] using keeps_refl
  cases ok with
  | false =>
    simp only [race,none]
    refine ⟨fun _ => id,?_,fun _ => .inl,rfl,?_⟩
    · intro c held
      simpa [Race.Holds] using .inr held
    · exact fun fair => fair.moved (by simp only [length_append,length_singleton]; omega)
  | true =>
    simp only [race,none,if_false,if_true]
    refine ⟨fun _ => id,?_,?_,rfl,?_⟩
    · grind [Race.Holds]
    · intro c mem
      rcases mem_append.mp mem with old | new
      · exact .inl old
      · exact .inr (.inl (mem_append_right _ new))
    · exact fun fair => fair.moved (by simp only [length_append,length_singleton]; omega)

theorem keeps_requested (i : Nat) : Keeps e r (race e r (.requested i ok)).1 (race e r (.requested i ok)).2.1 := by
  cases there : r.requesting[i]? with
  | none => simpa [race,there] using keeps_refl
  | some conn =>
    have others {c : Conn} (mem : c ∈ r.requesting) : c = conn ∨ c ∈ r.requesting.eraseIdx i := by
      obtain ⟨j,found⟩ := mem_iff_getElem?.mp mem
      by_cases same : j = i
      · subst same
        exact .inl (Option.some.inj (found.symm.trans there))
      · exact .inr (mem_eraseIdx_iff_getElem?.mpr ⟨j,same,found⟩)
    have fewer := length_eraseIdx_add_one (List.getElem?_eq_some_iff.mp there).1
    cases ok with
    | false =>
      simp only [race,there]
      refine ⟨fun _ => settled_closes,?_,fun _ => .inl,rfl,?_⟩
      · rintro c (mem | more)
        · rcases others mem with rfl | stays
          · exact .inl (.inr (by simp [Exit.closes]))
          · exact .inr (.inl stays)
        · exact .inr (.inr (by simpa using more))
      · exact fun fair => fair.moved (by simp only [length_append,length_singleton]; omega)
    | true =>
      simp only [race,there]
      refine ⟨fun _ => id,?_,fun _ => .inl,rfl,?_⟩
      · rintro c (mem | more)
        · rcases others mem with rfl | stays
          · exact .inr (.inr (.inl (by simp)))
          · exact .inr (.inl stays)
        · exact .inr (.inr (by simpa using more.imp_left .inl))
      · exact fun fair => fair.moved (by simp only [length_append,length_singleton]; omega)

theorem keeps_receive : Keeps e r (race e r .receive).1 (race e r .receive).2.1 := by
  cases queued : r.ch with
  | nil => simpa [race,queued] using keeps_refl
  | cons result rest =>
    have results (fair : r.Fair) : r.dialing + r.requesting.length + rest.length + (r.received ++ [result]).length = r.candidates := by
      grind [fair.results,length_append,length_cons]
    cases done : r.returned with
    | none =>
      cases result with
      | some conn =>
        simp only [race,queued,done]
        refine ⟨fun _ => id,?_,fun _ => .inl,rfl,fun fair => ⟨results fair,by simp,by simp,by simp⟩⟩
        grind [Race.Holds]
      | none =>
        simp only [race,queued,done]
        refine ⟨fun _ => id,?_,fun _ => .inl,rfl,?_⟩
        · grind [Race.Holds]
        · intro fair
          obtain ⟨failed,fewer⟩ := fair.waits done
          have all : ∀ x ∈ r.received ++ [none], x = none := by simpa [or_imp,forall_and] using failed
          split_ifs with last
          · exact ⟨results fair,by simp,fun _ => ⟨all,last⟩,by simp⟩
          · refine ⟨results fair,fun _ => ⟨all,?_⟩,by simp,by simp⟩
            simp only [length_append,length_singleton] at last ⊢
            omega
    | some outcome =>
      have kept (fair : r.Fair) : Race.Fair { r with ch := rest, received := r.received ++ [result] } := by
        refine ⟨results fair,by simp [done],?_,fun c won => mem_append_left _ (fair.wins c won)⟩
        grind [fair.fails]
      cases result with
      | some conn =>
        simp only [race,queued,done]
        refine ⟨fun _ => settled_closes,?_,fun _ => .inl,rfl,by simpa [done] using kept⟩
        intro c held
        simp only [Race.Holds,queued,mem_cons,Option.some.injEq] at held
        rcases held with mem | (rfl | mem) | won
        · exact .inr (.inl mem)
        · exact .inl (.inr (by simp [Exit.closes]))
        · exact .inr (.inr (.inl mem))
        · exact .inr (.inr (.inr (by simpa [done] using won)))
      | none =>
        simp only [race,queued,done]
        refine ⟨fun _ => id,?_,fun _ => .inl,rfl,by simpa [done] using kept⟩
        intro c held
        simp only [Race.Holds,queued,done,mem_cons,reduceCtorEq,false_or] at held
        exact .inr held

theorem race_keeps : Keeps e r (race e r m).1 (race e r m).2.1 := by
  cases m with
  | dialed ok => exact keeps_dialed
  | requested i ok => exact keeps_requested i
  | receive => exact keeps_receive

theorem accounted_run {k : Nat} (all : ∀ c ∈ p.state.opened, Accounted p c) :
    ∀ c ∈ (runAt (act now ok) p k).1.state.opened, Accounted (runAt (act now ok) p k).1 c := by
  cases there : p.running[k]? with
  | none => simpa [there] using all
  | some t =>
    have state : (runAt (act now ok) p k).1.state = (act now ok p.state t).state := runAt_state there
    have next {c : Conn} (goes : Settled (act now ok p.state t).state c ∨ (act now ok p.state t).next.bind Point.conn = some c) :
        Accounted (runAt (act now ok) p k).1 c := by
      rcases goes with settled | passed
      · exact .inl (state ▸ settled)
      · obtain ⟨t',follows,holds⟩ := Option.bind_eq_some_iff.mp passed
        exact .inr (.inl ⟨t',(mem_runAt_iff there).mpr (.inr (.inl follows)),holds⟩)
    intro c mem
    rw [state] at mem
    rcases opened_act mem with old | new
    · rcases all c old with settled | ⟨t',mem',holds⟩ | ⟨r,mem',holds⟩
      · exact next (settled_act settled)
      · obtain ⟨j,found⟩ := mem_iff_getElem?.mp mem'
        by_cases same : j = k
        · grind [held_act]
        · exact .inr (.inl ⟨t',(mem_runAt_iff there).mpr (.inl ⟨j,same,found⟩),holds⟩)
      · exact .inr (.inr ⟨r,by rw [state,races_act]; exact mem',holds⟩)
    · exact next (.inr new)

theorem accounted_race {k : Nat} (all : ∀ c ∈ p.state.opened, Accounted p c) :
    ∀ c ∈ (step p (.race k m)).1.state.opened, Accounted (step p (.race k m)).1 c := by
  cases there : p.state.races[k]? with
  | none => simpa [step,there] using all
  | some r =>
    have keeps := race_keeps (e := p.state) (r := r) (m := m)
    have inside := (List.getElem?_eq_some_iff.mp there).1
    simp only [step,there]
    have own : (race p.state r m).2.1 ∈ (race p.state r m).1.races.set k (race p.state r m).2.1 := by
      rw [keeps.races]
      exact mem_set inside _
    intro c mem
    rcases keeps.opened c mem with old | new
    · rcases all c old with settled | ⟨t,mem',holds⟩ | ⟨r',mem',holds⟩
      · exact .inl (keeps.settled c settled)
      · exact .inr (.inl ⟨t,mem_append_left _ mem',holds⟩)
      · obtain ⟨j,found⟩ := mem_iff_getElem?.mp mem'
        by_cases same : k = j
        · subst same
          obtain rfl : r' = r := Option.some.inj (found.symm.trans there)
          rcases keeps.held c holds with settled | holds
          · exact .inl settled
          · exact .inr (.inr ⟨_,own,holds⟩)
        · refine .inr (.inr ⟨r',mem_iff_getElem?.mpr ⟨j,?_⟩,holds⟩)
          rw [keeps.races,List.getElem?_set_ne same,found]
    · exact .inr (.inr ⟨_,own,new⟩)

theorem accounted_step (p : State) (i : Input) (all : ∀ c ∈ p.state.opened, Accounted p c) :
    ∀ c ∈ (step p i).1.state.opened, Accounted (step p i).1 c := by
  have more (points : List Point) : ∀ c ∈ p.state.opened, Accounted (p.start points) c := by
    intro c mem
    refine (all c mem).imp_right (.imp_left ?_)
    rintro ⟨t,old,holds⟩
    exact ⟨t,mem_append_left _ old,holds⟩
  cases i with
  | getOrCreate key => exact more _
  | storePeer connID => exact more _
  | close key => exact more _
  | dialBestPeer connID candidates =>
    intro c mem
    refine (all c mem).imp_right (.imp_right ?_)
    rintro ⟨r,old,holds⟩
    exact ⟨r,mem_append_left _ old,holds⟩
  | watchdog udp now => exact fun c mem => (all c mem).imp_left (settled_watchdog udp)
  | run k now ok => exact accounted_run all
  | race k m => exact accounted_race all

theorem fair_step (p : State) (i : Input) (all : ∀ r ∈ p.state.races, r.Fair) : ∀ r ∈ (step p i).1.state.races, r.Fair := by
  cases i with
  | dialBestPeer connID candidates =>
    intro r mem
    rcases mem_append.mp mem with old | new
    · exact all r old
    · rw [mem_singleton.mp new]
      by_cases none : candidates = 0
      · exact ⟨by simp [dialBestPeer],by simp [dialBestPeer,none],by simp [dialBestPeer,none],by simp [dialBestPeer]⟩
      · refine ⟨by simp [dialBestPeer],fun _ => ⟨by simp [dialBestPeer],Nat.pos_of_ne_zero none⟩,?_,?_⟩ <;> simp [dialBestPeer,none]
  | run k now ok =>
    cases there : p.running[k]? with
    | none => simpa [step,there] using all
    | some t => simpa [step,runAt_state there,races_act] using all
  | race k m =>
    cases there : p.state.races[k]? with
    | none => simpa [step,there] using all
    | some r =>
      have keeps := race_keeps (e := p.state) (r := r) (m := m)
      grind [step,keeps.races,keeps.fair]
  | _ => exact all

/-- When every call is through, each connection that was opened is the pool's for its key, or one
    that `dialBestPeer` returned, or closed; and `dialBestPeer` has failed when all candidates have. -/
theorem no_leaked_conns (inputs : List Input) (through : (final step start inputs).running = [])
    (races : ∀ r ∈ (final step start inputs).state.races, r.Over) :
    (∀ c ∈ (final step start inputs).state.opened, Current (final step start inputs).state.pool c ∨
      (∃ r ∈ (final step start inputs).state.races, r.returned = some (some c)) ∨ c ∈ (final step start inputs).state.closed) ∧
    ∀ r ∈ (final step start inputs).state.races, r.received.length = r.candidates ∧ r.returned ≠ none ∧
      (r.returned = some none ↔ ∀ x ∈ r.received, x = none) := by
  have accounted := state_run (P := fun p => ∀ c ∈ p.state.opened, Accounted p c) accounted_step inputs (s := start) (by simp [start])
  have fair := state_run (P := fun p => ∀ r ∈ p.state.races, r.Fair) fair_step inputs (s := start) (by simp [start])
  constructor
  · intro c mem
    rcases accounted c mem with (current | closed) | ⟨t,running,-⟩ | ⟨r,there,holds⟩
    · exact .inl current
    · exact .inr (.inr closed)
    · simp [through] at running
    · obtain ⟨-,none,empty⟩ := races r there
      simp only [Race.Holds,none,empty,not_mem_nil,false_or] at holds
      exact .inr (.inl ⟨r,there,holds⟩)
  · intro r there
    obtain ⟨dialed,none,empty⟩ := races r there
    have ok := fair r there
    have full : r.received.length = r.candidates := by
      have := ok.results
      simp only [dialed,none,empty,length_nil] at this
      omega
    have returned : r.returned ≠ .none := fun waiting => by
      have := (ok.waits waiting).2
      omega
    refine ⟨full,returned,fun failed => (ok.fails failed).1,?_⟩
    intro failed
    cases result : r.returned with
    | none => exact absurd result returned
    | some outcome =>
      cases outcome with
      | none => rfl
      | some c => exact absurd (failed _ (ok.wins c result)) (by simp)

def sampleInputs : List Input :=
  [.getOrCreate (.tcp "a"),.getOrCreate (.tcp "a"),.run 0 0 true,.run 1 0 true,.run 0 0 true,.run 1 0 true,.run 0 0 true,
    .run 0 0 true,.dialBestPeer "b" 2,.race 0 (.dialed true),.race 0 (.dialed true),.race 0 (.requested 1 true),
    .race 0 (.requested 0 true),.race 0 .receive,.race 0 .receive,.run 0 0 true]

theorem no_leaked_conns_sample : (final step start sampleInputs).state.closed = [⟨.tcp "b",2⟩,⟨.tcp "a",1⟩] ∧
    ∀ c ∈ (final step start sampleInputs).state.opened, Current (final step start sampleInputs).state.pool c ∨
      (∃ r ∈ (final step start sampleInputs).state.races, r.returned = some (some c)) ∨
      c ∈ (final step start sampleInputs).state.closed := by
  refine ⟨by decide,(no_leaked_conns sampleInputs ?_ ?_).1⟩
  · exact isEmpty_iff.mp (by decide)
  · simp only [Race.Over]
    decide

end TunnelCat.ExitConns
