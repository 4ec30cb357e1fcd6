import TunnelCat.Exits

/-!
What a merge makes of the control's list (`refresh` and `LoadCached` of `snc-control/exits.go`).

A signed response is merged by `merge_invariants`. The file on disk always wins: it takes nothing back
exactly if its times are not before those in memory, and what it has without a time does not differ from
what a response said (`loadCached_no_regress_iff`).
-/
namespace TunnelCat.ExitMerge
open Durations Exits List
open HostPort (Text)

variable (now : Int) (nodes : List ExitNode) (r : Registry) (file : Option Cache) (lastSeen : Table Text Int)

def afterTurn (addr : Text) : Table Text Int :=
  let known := if (lastSeen.lookup addr).isSome then lastSeen else lastSeen.insert addr now
  if now - (lastSeen.lookup addr).getD now > staleExitAfter then known.erase addr else known

theorem mergeLoop_times {now : Int} {addr : Text} {e : ExitNode} {rest : List (Sigma fun _ : Text => ExitNode)}
    {lastSeen : Table Text Int} : (mergeLoop now (⟨addr,e⟩ :: rest) lastSeen).2 =
      (mergeLoop now rest (afterTurn now lastSeen addr)).2 := by
  grind [mergeLoop,afterTurn]

def settled (seen : Option Int) : Option Int :=
  if now - seen.getD now > staleExitAfter then none else some (seen.getD now)

theorem lookup_afterTurn (addr a : Text) :
    (afterTurn now lastSeen addr).lookup a = if a = addr then settled now (lastSeen.lookup a) else lastSeen.lookup a := by
  unfold afterTurn settled
  by_cases same : a = addr
  · subst same
    cases seen : lastSeen.lookup a with
    | none => simp [staleExitAfter,minute]
    | some t =>
      grind
  grind

theorem lookup_mergeLoop {now : Int} {entries : List (Sigma fun _ : Text => ExitNode)}
    (distinct : (entries.map Sigma.fst).Nodup) (lastSeen : Table Text Int) (a : Text) :
    (mergeLoop now entries lastSeen).2.lookup a =
      if a ∈ entries.map Sigma.fst then settled now (lastSeen.lookup a) else lastSeen.lookup a := by
  induction entries generalizing lastSeen with
  | nil => simp [mergeLoop]
  | cons x rest ih =>
    grind [mergeLoop_times,lookup_afterTurn]

section
variable {r : Registry} {now : Int} {verified : List ExitNode} {regions : Table Text Text} {range : Table.Range Text ExitNode}

theorem merge_distinct : (addrs (merge r now verified regions range).exits).Nodup := by
  have keyed : ∀ x ∈ range.entries (index verified (index r.exits ∅)), x.2.addr = x.1 :=
    fun x member => keyed_byAddr x ((range.entries_perm _).mem_iff.mp member)
  have keys : addrs (merge r now verified regions range).exits =
      ((range.entries (index verified (index r.exits ∅))).filter (fun x =>
        now - ((stamp now verified r.lastSeen).lookup x.1).getD now ≤ staleExitAfter)).map Sigma.fst := by
    grind [merge_exits,addrs,map_congr_left]
  rw [keys]
  exact (range.nodup_keys _).sublist (filter_sublist.map _)

theorem merge_times {a : Text} (listed : a ∈ addrs (merge r now verified regions range).exits) :
    ((merge r now verified regions range).lastSeen.lookup a).isSome := by
  have times : (merge r now verified regions range).lastSeen.lookup a =
      if a ∈ (range.entries (index verified (index r.exits ∅))).map Sigma.fst
        then settled now ((stamp now verified r.lastSeen).lookup a) else (stamp now verified r.lastSeen).lookup a :=
    lookup_mergeLoop (range.nodup_keys _) _ _
  rw [merge_exits,addrs,map_map] at listed
  obtain ⟨x,kept,rfl⟩ := mem_map.mp listed
  obtain ⟨there,fresh⟩ := mem_filter.mp kept
  have same : x.2.addr = x.1 := keyed_byAddr x ((range.entries_perm _).mem_iff.mp there)
  rw [Function.comp_apply,same] at times ⊢
  rw [times,if_pos (mem_map_of_mem there),settled,if_neg (by simpa using fresh)]
  rfl

theorem mem_merge_of_lookup {e : ExitNode} (found : (index verified (index r.exits ∅)).lookup e.addr = some e)
    (listed : e.addr ∈ addrs verified) : e ∈ (merge r now verified regions range).exits := by
  rw [merge_exits]
  refine mem_map.mpr ⟨⟨e.addr,e⟩,mem_filter.mpr ⟨?_,?_⟩,rfl⟩
  · exact (range.entries_perm _).mem_iff.mpr (AList.mem_lookup_iff.mp found)
  · simp [lookup_stamp,listed,staleExitAfter,minute]

end

theorem merge_invariants (r : Registry) (now : Int) (verified : List ExitNode) (regions : Table Text Text)
    (range : Table.Range Text ExitNode) :
    (addrs (merge r now verified regions range).exits).Nodup ∧
      (∀ a ∈ addrs (merge r now verified regions range).exits, ((merge r now verified regions range).lastSeen.lookup a).isSome) ∧
      (∀ before e after, verified = before ++ e :: after → e.addr ∉ addrs after →
        e ∈ (merge r now verified regions range).exits) ∧
      ∀ a ∈ addrs r.exits, a ∉ addrs (merge r now verified regions range).exits → Overdue r.lastSeen now a := by
  refine ⟨merge_distinct,fun a => merge_times,?_,?_⟩
  · rintro before e after rfl last
    refine mem_merge_of_lookup (lookup_index_of_last last _) ?_
    simp [addrs]
  · intro a known gone
    by_contra fresh
    exact gone (mem_merge.mpr (.inr ⟨known,fresh⟩))

/-- A response may list two nodes with one address; the first is not there. -/
theorem merge_keeps_last : ¬ ∀ (r : Registry) (now : Int) (verified : List ExitNode) (regions : Table Text Text)
    (range : Table.Range Text ExitNode), ∀ e ∈ verified, e ∈ (merge r now verified regions range).exits := by
  intro all
  have there := all (newExitRegistry true true) 0 [⟨"a".toList,[],10,0,none⟩,⟨"a".toList,[],20,0,none⟩] ∅
    (.asKept Text ExitNode) ⟨"a".toList,[],10,0,none⟩ (by simp)
  revert there
  decide +kernel

def dataOf (a : Text) : Option ExitNode := (index nodes ∅).lookup a

def cached : Option (List ExitNode × Table Text Int) :=
  (if r.cacheFile then file else none).bind Cache.decode

def cachedTime (a : Text) : Option Int :=
  (cached r file).bind (fun x => (x.2.lookup a).map (· * second))

/-- Nothing is taken back: no time is earlier than before or gone, the data of an address that came
    with a signed response changes only for what the file has from that time or after it, and
    every address is still there. -/
structure NoRegress (signed : Text → Bool) (file : Option Cache) (r r' : Registry) : Prop where
  times : ∀ a, ∀ t ∈ r.lastSeen.lookup a, ∃ t' ∈ r'.lastSeen.lookup a, t ≤ t'
  data : ∀ a e, signed a = true → dataOf r.exits a = some e → dataOf r'.exits a ≠ some e →
    ∃ t ∈ cachedTime r file a, ∀ seen ∈ r.lastSeen.lookup a, seen ≤ t
  exits : ∀ a ∈ addrs r.exits, a ∈ addrs r'.exits

/-- The file is not behind: each time that it has for one of its nodes is not before the one in
    memory, and where it has none its data is that of the signed response in memory. -/
def NotBehind (signed : Text → Bool) (file : Option Cache) (r : Registry) : Prop :=
  ∀ nodes cachedSeen, cached r file = some (nodes,cachedSeen) → ∀ a ∈ addrs nodes,
    match cachedSeen.lookup a with
    | some t => ∀ seen ∈ r.lastSeen.lookup a, seen ≤ t * second
    | none => ∀ e, signed a = true → dataOf r.exits a = some e → dataOf nodes a = some e

theorem lookup_adopt (cachedSeen : Table Text Int) (nodes : List ExitNode) (lastSeen : Table Text Int) (a : Text) :
    (adopt now cachedSeen nodes lastSeen).lookup a =
      if a ∈ addrs nodes then
        match cachedSeen.lookup a with
        | some t => some (t * second)
        | none => some ((lastSeen.lookup a).getD now)
      else lastSeen.lookup a := by
  induction nodes generalizing lastSeen with
  | nil => simp [adopt,addrs]
  | cons n rest ih =>
    have unfolded : adopt now cachedSeen (n :: rest) lastSeen = adopt now cachedSeen rest
        (match cachedSeen.lookup n.addr with
          | some t => lastSeen.insert n.addr (t * second)
          | none => if (lastSeen.lookup n.addr).isSome then lastSeen else lastSeen.insert n.addr now) := rfl
    rw [unfolded,ih]
    by_cases same : a = n.addr
    · subst same
      have listed : n.addr ∈ addrs (n :: rest) := mem_cons_self
      rw [if_pos listed]
      cases time : cachedSeen.lookup n.addr with
      | some t => simp [AList.lookup_insert]
      | none =>
        cases seen : lastSeen.lookup n.addr with
        | none => simp [AList.lookup_insert]
        | some t => simp [seen]
    · grind [addrs]

theorem dataOf_entries {byAddr : Table Text ExitNode} (keyed : Keyed byAddr) (range : Table.Range Text ExitNode) (a : Text) :
    dataOf ((range.entries byAddr).map Sigma.snd) a = byAddr.lookup a := by
  have known :=
    fun x member => keyed x ((range.entries_perm _).mem_iff.mp member)
  have keys : addrs ((range.entries byAddr).map Sigma.snd) = (range.entries byAddr).map Sigma.fst := by
    rw [addrs,map_map]
    exact map_congr_left known
  have distinct := keys ▸ range.nodup_keys byAddr
  unfold dataOf
  cases found : byAddr.lookup a with
  | none =>
    have absent : a ∉ addrs ((range.entries byAddr).map Sigma.snd) := by
      rw [keys,((range.entries_perm byAddr).map Sigma.fst).mem_iff]
      exact AList.lookup_eq_none.mp found
    rw [lookup_index_of_absent absent]
    rfl
  | some e =>
    have entry :=
      (range.entries_perm _).mem_iff.mpr (AList.mem_lookup_iff.mp found)
    grind [lookup_index_of_mem]

theorem lookup_index (byAddr : Table Text ExitNode) (a : Text) :
    (index nodes byAddr).lookup a = (dataOf nodes a).or (byAddr.lookup a) := by
  induction nodes generalizing byAddr with
  | nil => rfl
  | cons n rest ih =>
    have unfolded : ∀ t : Table Text ExitNode, index (n :: rest) t = index rest (t.insert n.addr n) := fun _ => rfl
    rw [dataOf,unfolded,unfolded,ih,ih,Table.lookup_insert_of,Table.lookup_insert_of]
    by_cases same : a = n.addr
    · simp [same]
    · simp [same]

theorem dataOf_isSome {nodes : List ExitNode} {a : Text} : (dataOf nodes a).isSome ↔ a ∈ addrs nodes := by
  rw [dataOf,AList.lookup_isSome,mem_index]
  simp

section
variable {r : Registry} {file : Option Cache} {nodes : List ExitNode} {cachedSeen : Table Text Int}
  {now : Int} {range : Table.Range Text ExitNode}

theorem loadCached_of_some (read : cached r file = some (nodes,cachedSeen)) :
    loadCached r file now range = { r with
      exits := (range.entries (index nodes (index r.exits ∅))).map Sigma.snd
      lastSeen := adopt now cachedSeen nodes r.lastSeen } := by
  unfold cached at read
  unfold loadCached
  rw [read]

theorem loadCached_of_none (unread : cached r file = none) : loadCached r file now range = r := by
  unfold cached at unread
  unfold loadCached
  rw [unread]

theorem dataOf_loadCached (read : cached r file = some (nodes,cachedSeen)) (a : Text) :
    dataOf (loadCached r file now range).exits a = (dataOf nodes a).or (dataOf r.exits a) := by
  rw [loadCached_of_some read,dataOf_entries keyed_byAddr,lookup_index]
  rfl

theorem lastSeen_loadCached (read : cached r file = some (nodes,cachedSeen)) :
    (loadCached r file now range).lastSeen = adopt now cachedSeen nodes r.lastSeen := by
  rw [loadCached_of_some read]

end

theorem noRegress_refl (signed : Text → Bool) (file : Option Cache) (r : Registry) : NoRegress signed file r r := by
  refine ⟨?_,?_,fun _ member => member⟩
  · intro a t seen
    exact ⟨t,seen,Int.le_refl t⟩
  · intro a e _ known changed
    exact absurd known changed

section
variable {signed : Text → Bool} {r : Registry} {file : Option Cache} {nodes : List ExitNode} {cachedSeen : Table Text Int}
  {now : Int} {range : Table.Range Text ExitNode}

theorem notBehind_of_noRegress (read : cached r file = some (nodes,cachedSeen))
    (kept : NoRegress signed file r (loadCached r file now range)) : NotBehind signed file r := by
  intro nodes' cachedSeen' same a listed
  obtain ⟨rfl,rfl⟩ := Prod.mk.inj (Option.some.inj (read.symm.trans same))
  split
  case h_1 t time =>
    intro seen known
    obtain ⟨t',now',later⟩ := kept.times a seen known
    rw [lastSeen_loadCached read,lookup_adopt,if_pos listed,time] at now'
    exact Option.some.inj now' ▸ later
  case h_2 time =>
    intro e came known
    by_contra other
    have changed : dataOf (loadCached r file now range).exits a ≠ some e := by
      rw [dataOf_loadCached read]
      obtain ⟨e',found⟩ := Option.isSome_iff_exists.mp (dataOf_isSome.mpr listed)
      rw [found] at other ⊢
      exact other
    grind [kept.data,cachedTime]

theorem noRegress_of_notBehind (read : cached r file = some (nodes,cachedSeen)) (ahead : NotBehind signed file r) :
    NoRegress signed file r (loadCached r file now range) := by
  have ahead := ahead nodes cachedSeen read
  refine ⟨?_,?_,?_⟩
  · intro a t seen
    rw [lastSeen_loadCached read,lookup_adopt]
    by_cases listed : a ∈ addrs nodes
    · have ahead := ahead a listed
      rw [if_pos listed]
      cases time : cachedSeen.lookup a with
      | some t' =>
        rw [time] at ahead
        exact ⟨_,rfl,ahead t seen⟩
      | none => exact ⟨_,rfl,by rw [Option.mem_def.mp seen]; exact Int.le_refl t⟩
    · rw [if_neg listed]
      exact ⟨t,seen,Int.le_refl t⟩
  · intro a e came known changed
    rw [dataOf_loadCached read] at changed
    by_cases listed : a ∈ addrs nodes
    · have ahead := ahead a listed
      cases time : cachedSeen.lookup a with
      | some t =>
        rw [time] at ahead
        exact ⟨t * second,by rw [cachedTime,read,Option.bind_some,time]; rfl,ahead⟩
      | none =>
        grind
    · have none : dataOf nodes a = none := by simpa [← dataOf_isSome] using listed
      rw [none] at changed
      exact absurd known changed
  · intro a known
    rw [← dataOf_isSome] at known ⊢
    rw [dataOf_loadCached read,Option.isSome_or,known,Bool.or_true]

end

theorem loadCached_no_regress_iff (signed : Text → Bool) (r : Registry) (file : Option Cache) (now : Int)
    (range : Table.Range Text ExitNode) :
    NoRegress signed file r (loadCached r file now range) ↔ NotBehind signed file r := by
  cases read : cached r file with
  | none =>
    rw [loadCached_of_none read]
    refine iff_of_true (noRegress_refl signed file r) ?_
    intro nodes cachedSeen some_
    rw [read] at some_
    cases some_
  | some x => exact ⟨notBehind_of_noRegress read,noRegress_of_notBehind read⟩

def bootstrapped : Registry := loadBootstrap id (newExitRegistry true true) (86400 * second) ["a".toList]

def oldFile : Cache := .wrapper [sampleNode "a"] ((∅ : Table Text Int).insert "a".toList 0)

/-- The time of the exit goes back to that of the file. -/
theorem loadCached_regresses : ¬ ∀ (signed : Text → Bool) (r : Registry) (file : Option Cache) (now : Int)
    (range : Table.Range Text ExitNode), NoRegress signed file r (loadCached r file now range) := by
  intro all
  have kept := (all (fun _ => false) bootstrapped (some oldFile) (86400 * second) (.asKept Text ExitNode)).times
    "a".toList (86400 * second) (by decide +kernel)
  obtain ⟨t,back,later⟩ := kept
  have zero : (loadCached bootstrapped (some oldFile) (86400 * second) (.asKept Text ExitNode)).lastSeen.lookup
      "a".toList = some 0 := by decide +kernel
  rw [Option.mem_def,zero] at back
  cases back
  exact absurd later (by decide)

end TunnelCat.ExitMerge
