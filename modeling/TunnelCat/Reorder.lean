import Mathlib.Order.Bounds.Basic
import TunnelCat.Frames
import TunnelCat.Runs
import TunnelCat.Table

/-!
A session of the exit and its in-order delivery (`snc-exit/sessions.go`). Frames that arrive early wait in a
buffer until every frame before them has been written.
-/
namespace TunnelCat.Reorder
open List Table

def reorderBufMax : Nat := 32

structure Session where
  writable : Bool
  bytesUp : Nat
  reorderBuf : Table Nat (List UInt8)
  reorderNext : Nat

def Session.fresh : Session := ⟨true,0,∅,1⟩

inductive DeliverError
  | bufferFull (next arrived : Nat)
  | writeFailed

/-- What a delivery leaves, writes to the target and returns. -/
structure Delivery where
  session : Session
  wrote : List UInt8
  error : Option DeliverError

def drain : Nat → Session → Delivery
  | 0, s => ⟨s,[],none⟩
  | fuel+1, s =>
    match s.reorderBuf.lookup s.reorderNext with
    | none => ⟨s,[],none⟩
    | some next =>
      if next ≠ [] ∧ s.writable = false then
        ⟨{ s with reorderBuf := s.reorderBuf.erase s.reorderNext },[],some .writeFailed⟩
      else
        let rest := drain fuel
          { s with
            reorderBuf := s.reorderBuf.erase s.reorderNext
            reorderNext := (s.reorderNext + 1) % 2 ^ 32 }
        { rest with wrote := next ++ rest.wrote }

def deliverInOrder (s : Session) (seq : Nat) (payload : List UInt8) : Delivery :=
  if seq < s.reorderNext then ⟨s,[],none⟩
  else if s.reorderNext < seq then
    if s.reorderBuf.size ≥ reorderBufMax then ⟨s,[],some (.bufferFull s.reorderNext seq)⟩
    else ⟨{ s with reorderBuf := s.reorderBuf.insert seq payload },[],none⟩
  else if payload ≠ [] ∧ s.writable = false then ⟨s,[],some .writeFailed⟩
  else
    let rest := drain s.reorderBuf.size { s with reorderNext := (s.reorderNext + 1) % 2 ^ 32 }
    { rest with wrote := payload ++ rest.wrote }

/-- The session has written the chunks before `n` and holds those of the arrived
    ones that come later; chunk `k` has the sequence number `k + 1`. -/
structure Held (chunks : List (List UInt8)) (arrived : List Nat) (n : Nat) (s : Session) : Prop where
  writable : s.writable = true
  next : s.reorderNext = (n + 1) % 2 ^ 32
  buffered : ∀ seq data, s.reorderBuf.lookup seq = some data ↔
    ∃ k ∈ arrived, n ≤ k ∧ seq = k + 1 ∧ chunks[k]? = some data

section
variable {chunks : List (List UInt8)} {arrived : List Nat} {n : Nat} {s : Session}

theorem held_lookup (few : chunks.length < 2 ^ 32) (held : Held chunks arrived n s)
    (data : List UInt8) : s.reorderBuf.lookup s.reorderNext = some data ↔ n ∈ arrived ∧ chunks[n]? = some data := by
  grind [held.buffered,held.next]

theorem held_taken (upto : n < chunks.length) (few : chunks.length < 2 ^ 32) (held : Held chunks arrived n s) :
    Held chunks arrived (n + 1)
      { s with
        reorderBuf := s.reorderBuf.erase s.reorderNext
        reorderNext := (s.reorderNext + 1) % 2 ^ 32 } := by
  have next := held.next
  refine ⟨held.writable,by simp only; omega,?_⟩
  grind [held.buffered]

theorem flatten_take_succ (chunk : chunks[n]? = some data) :
    (chunks.take (n + 1)).flatten = (chunks.take n).flatten ++ data := by
  grind [take_add_one]

theorem drain_correct (few : chunks.length < 2 ^ 32) : ∀ (fuel n : Nat) (s : Session), Held chunks arrived n s →
    n ≤ chunks.length → (∀ k ∈ arrived, k < chunks.length) → s.reorderBuf.size ≤ fuel →
    ∃ m, n ≤ m ∧ m ≤ chunks.length ∧ m ∉ arrived ∧ (∀ k, n ≤ k → k < m → k ∈ arrived) ∧
      Held chunks arrived m (drain fuel s).session ∧ (drain fuel s).error = none ∧
      (chunks.take n).flatten ++ (drain fuel s).wrote = (chunks.take m).flatten := by
  intro fuel
  -- an empty buffer or a missing chunk ends the loop; both leave the session as it is
  have stop : ∀ (n : Nat) (s : Session), Held chunks arrived n s → n ≤ chunks.length →
      (∀ k ∈ arrived, k < chunks.length) → s.reorderBuf.lookup s.reorderNext = none → n ∉ arrived := by
    intro n s held upto inside missing member
    have found := (held_lookup few held _).mpr ⟨member,List.getElem?_eq_getElem (inside n member)⟩
    simp [missing] at found
  induction fuel with
  | zero =>
    intro n s held upto inside size
    have empty : s.reorderBuf.lookup s.reorderNext = none := by
      have entries : s.reorderBuf.entries = [] := eq_nil_of_length_eq_zero (Nat.le_zero.mp size)
      simp [AList.lookup,entries]
    grind [drain]
  | succ fuel ih =>
    intro n s held upto inside size
    cases found : s.reorderBuf.lookup s.reorderNext with
    | none =>
      have same : drain (fuel + 1) s = ⟨s,[],none⟩ := by simp [drain,found]
      rw [same]
      exact ⟨n,le_refl n,upto,stop n s held upto inside found,fun k from_ before => by omega,held,rfl,by simp⟩
    | some data =>
      obtain ⟨member,chunk⟩ := (held_lookup few held data).mp found
      have below : n < chunks.length := inside n member
      have smaller := size_erase found
      obtain ⟨m,from_,end_,missing,between,held',error,wrote⟩ := ih (n + 1) _ (held_taken below few held) (by omega)
        inside (by simp only; omega)
      have step : drain (fuel + 1) s =
          { drain fuel
              { s with
                reorderBuf := s.reorderBuf.erase s.reorderNext
                reorderNext := (s.reorderNext + 1) % 2 ^ 32 } with
            wrote := data ++ (drain fuel
              { s with
                reorderBuf := s.reorderBuf.erase s.reorderNext
                reorderNext := (s.reorderNext + 1) % 2 ^ 32 }).wrote } := by
        simp [drain,found,held.writable]
      rw [step]
      refine ⟨m,by omega,end_,missing,?_,held',error,?_⟩
      · grind
      · rwa [flatten_take_succ chunk,append_assoc] at wrote

theorem held_size (missing : n ∉ arrived) (held : Held chunks arrived n s) :
    s.reorderBuf.size ≤ (arrived.filter (fun k => n < k)).length := by
  have listed : s.reorderBuf.keys ⊆ (arrived.filter (fun k => n < k)).map (· + 1) := by
    intro seq member
    obtain ⟨data,found⟩ := Option.isSome_iff_exists.mp (AList.lookup_isSome.mpr (AList.mem_keys.mpr member))
    obtain ⟨k,arrived_,from_,same,_⟩ := (held.buffered seq data).mp found
    have later : n ≠ k := fun equal => missing (equal ▸ arrived_)
    exact mem_map.mpr ⟨k,mem_filter.mpr ⟨arrived_,by simp only [decide_eq_true_eq]; omega⟩,same.symm⟩
  have bound := (subperm_of_subset s.reorderBuf.keys_nodup listed).length_le
  rwa [length_map,← size_eq] at bound

structure Missing (arrived : List Nat) (n : Nat) : Prop where
  before : ∀ k < n, k ∈ arrived
  first : n ∉ arrived

variable {data : List UInt8}

theorem deliver_correct {k : Nat} (few : chunks.length < 2 ^ 32)
    (inside : ∀ k ∈ arrived, k < chunks.length) (missing : Missing arrived n) (held : Held chunks arrived n s)
    (new : k ∉ arrived) (chunk : chunks[k]? = some data) (room : n < k → s.reorderBuf.size < reorderBufMax) :
    ∃ m, Missing (arrived ++ [k]) m ∧ Held chunks (arrived ++ [k]) m (deliverInOrder s (k + 1) data).session ∧
      (deliverInOrder s (k + 1) data).error = none ∧
      (chunks.take n).flatten ++ (deliverInOrder s (k + 1) data).wrote = (chunks.take m).flatten := by
  have below : k < chunks.length := (List.getElem?_eq_some_iff.mp chunk).1
  have notEarly : n ≤ k := by
    by_contra early
    exact new (missing.before k (by omega))
  have next : s.reorderNext = n + 1 := by
    rw [held.next]
    omega
  rcases Nat.eq_or_lt_of_le notEarly with rfl | later
  · -- the missing chunk: it is written, and the buffer is drained after it
    have ready : Held chunks (arrived ++ [n]) (n + 1) { s with reorderNext := (s.reorderNext + 1) % 2 ^ 32 } := by
      refine ⟨held.writable,by rw [next],?_⟩
      intro seq payload
      rw [held.buffered]
      constructor
      · rintro ⟨j,member,from_,rest⟩
        have other : n ≠ j := fun equal => new (equal ▸ member)
        exact ⟨j,mem_append_left _ member,by omega,rest⟩
      · rintro ⟨j,member,from_,rest⟩
        rcases mem_append.mp member with old | own
        · exact ⟨j,old,by omega,rest⟩
        · simp only [mem_singleton] at own
          omega
    have inside' : ∀ j ∈ arrived ++ [n], j < chunks.length := by
      simpa [or_imp,forall_and,below] using inside
    obtain ⟨m,from_,_,absent,between,held',error,wrote⟩ := drain_correct few s.reorderBuf.size (n + 1)
      { s with reorderNext := (s.reorderNext + 1) % 2 ^ 32 } ready below inside' (le_refl _)
    have step : deliverInOrder s (n + 1) data =
        { drain s.reorderBuf.size { s with reorderNext := (s.reorderNext + 1) % 2 ^ 32 } with
          wrote := data ++ (drain s.reorderBuf.size { s with reorderNext := (s.reorderNext + 1) % 2 ^ 32 }).wrote } := by
      simp [deliverInOrder,next,held.writable]
    rw [step]
    refine ⟨m,⟨?_,absent⟩,held',error,?_⟩
    · intro j before
      rcases Nat.lt_or_ge j (n + 1) with low | high
      · rcases Nat.eq_or_lt_of_le (Nat.lt_succ_iff.mp low) with rfl | lower
        · simp
        · exact mem_append_left _ (missing.before j lower)
      · exact between j high before
    · rwa [flatten_take_succ chunk,append_assoc] at wrote
  · have step : deliverInOrder s (k + 1) data =
        ⟨{ s with reorderBuf := s.reorderBuf.insert (k + 1) data },[],none⟩ := by
      have early : ¬ k + 1 < s.reorderNext := by omega
      have late : s.reorderNext < k + 1 := by omega
      simp [deliverInOrder,early,late,Nat.not_le.mpr (room later)]
    rw [step]
    refine ⟨n,⟨fun j before => mem_append_left _ (missing.before j before),?_⟩,⟨held.writable,held.next,?_⟩,rfl,
      by simp⟩
    · simpa [missing.first] using (show n ≠ k by omega)
    · grind [held.buffered]

/-- All the chunks that can be numbered have been written, and the counter has wrapped.
    What arrives then is taken for early and waits for ever. -/
structure Wrapped (n : Nat) (s : Session) : Prop where
  all : n + 1 = 2 ^ 32
  next : s.reorderNext = 0
  buffered : ∀ seq ∈ s.reorderBuf.keys, 0 < seq

structure Reached (chunks : List (List UInt8)) (arrived : List Nat) (n : Nat) (s : Session) : Prop where
  missing : Missing arrived n
  inside : ∀ k ∈ arrived, k < chunks.length
  state : Held chunks arrived n s ∨ Wrapped n s

theorem reached_fresh (chunks : List (List UInt8)) : Reached chunks [] 0 .fresh := by
  refine ⟨⟨by simp,by simp⟩,by simp,.inl ⟨rfl,rfl,?_⟩⟩
  simp [Session.fresh]

theorem Missing.upto (missing : Missing arrived n) (inside : ∀ k ∈ arrived, k < chunks.length) :
    n ≤ chunks.length := by
  by_contra beyond
  exact absurd (inside _ (missing.before chunks.length (by omega))) (lt_irrefl _)

theorem reached_cases (few : chunks.length < 2 ^ 32) (reached : Reached chunks arrived n s) :
    n + 1 < 2 ^ 32 ∧ Held chunks arrived n s ∨ Wrapped n s := by
  rcases reached.state with held | wrapped
  · have upto := reached.missing.upto reached.inside
    rcases Nat.lt_or_ge (n + 1) (2 ^ 32) with below | last
    · exact .inl ⟨below,held⟩
    · have all : n + 1 = 2 ^ 32 := by omega
      refine .inr ⟨all,by rw [held.next,all,Nat.mod_self],?_⟩
      intro seq member
      obtain ⟨data,found⟩ := Option.isSome_iff_exists.mp (AList.lookup_isSome.mpr (AList.mem_keys.mpr member))
      obtain ⟨k,_,_,same,_⟩ := (held.buffered seq data).mp found
      omega
  · exact .inr wrapped

theorem reached_buffered (few : chunks.length < 2 ^ 32) (reached : Reached chunks arrived n s) :
    ∀ seq ∈ s.reorderBuf.keys, s.reorderNext < seq := by
  intro seq member
  rcases reached_cases few reached with ⟨below,held⟩ | wrapped
  · obtain ⟨data,found⟩ := Option.isSome_iff_exists.mp (AList.lookup_isSome.mpr (AList.mem_keys.mpr member))
    grind [held.buffered,reached.missing.first,held.next]
  · rw [wrapped.next]
    exact wrapped.buffered seq member

theorem Reached.congr {arrived' : List Nat} (same : ∀ k, k ∈ arrived' ↔ k ∈ arrived)
    (reached : Reached chunks arrived n s) : Reached chunks arrived' n s := by
  obtain ⟨⟨before,first⟩,inside,state⟩ := reached
  refine ⟨⟨fun k below => (same k).mpr (before k below),fun member => first ((same n).mp member)⟩,
    fun k member => inside k ((same k).mp member),?_⟩
  rcases state with held | wrapped
  · exact .inl ⟨held.writable,held.next,by simpa only [same] using held.buffered⟩
  · exact .inr wrapped

theorem deliver_early {seq : Nat} (early : s.reorderNext < seq)
    (fine : (deliverInOrder s seq data).error = none) :
    deliverInOrder s seq data = ⟨{ s with reorderBuf := s.reorderBuf.insert seq data },[],none⟩ := by
  grind [deliverInOrder]

theorem held_again {k : Nat} (held : Held chunks arrived n s) (again : k ∈ arrived) (later : n < k)
    (chunk : chunks[k]? = some data) :
    Held chunks arrived n { s with reorderBuf := s.reorderBuf.insert (k + 1) data } := by
  refine ⟨held.writable,held.next,?_⟩
  grind [held.buffered]

theorem deliver_reached {k : Nat} (few : chunks.length < 2 ^ 32)
    (reached : Reached chunks arrived n s) (chunk : chunks[k]? = some data)
    (fine : (deliverInOrder s (k + 1) data).error = none) :
    ∃ m, Reached chunks (arrived ++ [k]) m (deliverInOrder s (k + 1) data).session ∧
      (chunks.take n).flatten ++ (deliverInOrder s (k + 1) data).wrote = (chunks.take m).flatten := by
  have below : k < chunks.length := (List.getElem?_eq_some_iff.mp chunk).1
  have inside : ∀ j ∈ arrived ++ [k], j < chunks.length := by
    simpa [or_imp,forall_and,below] using reached.inside
  have known (again : k ∈ arrived) : ∀ j, j ∈ arrived ++ [k] ↔ j ∈ arrived := by
    grind
  rcases reached_cases few reached with ⟨small,held⟩ | wrapped
  · have next : s.reorderNext = n + 1 := held.next.trans (Nat.mod_eq_of_lt small)
    by_cases again : k ∈ arrived
    · rcases Nat.lt_or_ge k n with old | waiting
      · have step : deliverInOrder s (k + 1) data = ⟨s,[],none⟩ := by
          have early : k + 1 < s.reorderNext := by omega
          simp [deliverInOrder,early]
        rw [step]
        exact ⟨n,reached.congr (known again),by simp⟩
      · have later : n < k := lt_of_le_of_ne waiting (fun equal => reached.missing.first (equal ▸ again))
        rw [deliver_early (by omega) fine]
        have kept : Reached chunks arrived n { s with reorderBuf := s.reorderBuf.insert (k + 1) data } :=
          ⟨reached.missing,reached.inside,.inl (held_again held again later chunk)⟩
        exact ⟨n,kept.congr (known again),by simp⟩
    · have room (later : n < k) : s.reorderBuf.size < reorderBufMax := by
        grind [deliverInOrder]
      obtain ⟨m,missing,held',_,wrote⟩ := deliver_correct few reached.inside reached.missing held again chunk room
      exact ⟨m,⟨missing,inside,.inl held'⟩,wrote⟩
  · -- everything has been written, so `n` is no chunk and `k` comes before it
    have all := wrapped.all
    have missing : Missing (arrived ++ [k]) n := by
      refine ⟨fun j before => mem_append_left _ (reached.missing.before j before),?_⟩
      simpa [reached.missing.first] using (show n ≠ k by omega)
    rw [deliver_early (by rw [wrapped.next]; omega) fine]
    refine ⟨n,⟨missing,inside,.inr ⟨all,wrapped.next,?_⟩⟩,by simp⟩
    intro seq member
    rw [AList.keys_insert,mem_cons] at member
    rcases member with rfl | member
    · omega
    · exact wrapped.buffered seq (mem_of_mem_erase member)

end

def arrive (payloads : List (List UInt8)) (s : Session) (seq : Nat) : Session × Delivery :=
  let d := deliverInOrder s seq (payloads.getD (seq - 1) [])
  (d.session,d)

def written (payloads : List (List UInt8)) (arrivals : List Nat) : List UInt8 :=
  ((Runs.trace (arrive payloads) .fresh arrivals).map (fun d => d.wrote)).flatten

theorem arrivals_reached {payloads : List (List UInt8)} (few : payloads.length < 2 ^ 32) (arrivals : List Nat) :
    ∀ {arrived : List Nat} {n : Nat} {s : Session}, Reached payloads arrived n s →
    (∀ seq ∈ arrivals, 1 ≤ seq ∧ seq ≤ payloads.length) →
    (∀ d ∈ Runs.trace (arrive payloads) s arrivals, d.error = none) →
    ∃ m, Reached payloads (arrived ++ arrivals.map (· - 1)) m (Runs.final (arrive payloads) s arrivals) ∧
      (payloads.take n).flatten ++ ((Runs.trace (arrive payloads) s arrivals).map (fun d => d.wrote)).flatten =
        (payloads.take m).flatten := by
  induction arrivals with
  | nil =>
    intro arrived n s reached _ _
    exact ⟨n,by simpa using reached,by simp⟩
  | cons seq rest ih =>
    intro arrived n s reached numbered fine
    obtain ⟨first,last⟩ := numbered seq mem_cons_self
    obtain ⟨k,rfl⟩ : ∃ k, seq = k + 1 := ⟨seq - 1,by omega⟩
    have chunk : payloads[k]? = some (payloads.getD k []) := by
      grind
    obtain ⟨m,reached',wrote⟩ := deliver_reached few reached chunk (fine _ mem_cons_self)
    obtain ⟨m',final,wrote'⟩ := ih reached' (fun j later => numbered j (mem_cons_of_mem _ later))
      (fun d later => fine d (mem_cons_of_mem _ later))
    refine ⟨m',by simpa [arrive] using final,?_⟩
    rw [← wrote',← wrote]
    simp [arrive]

/-- After every run of arrivals of the payloads 1, …, n, in any order and with any
    duplicates, that no delivery fails: the session has written the payloads 1, …, k, where k
    is the largest number such that all of them have arrived, and only later ones wait. -/
theorem reorder_correct (payloads : List (List UInt8)) (few : payloads.length < 2 ^ 32) (arrivals : List Nat)
    (numbered : ∀ seq ∈ arrivals, 1 ≤ seq ∧ seq ≤ payloads.length)
    (fine : ∀ d ∈ Runs.trace (arrive payloads) .fresh arrivals, d.error = none) :
    ∃ k, IsGreatest {k | ∀ j, 1 ≤ j → j ≤ k → j ∈ arrivals} k ∧
      written payloads arrivals = (payloads.take k).flatten ∧
      ∀ seq ∈ (Runs.final (arrive payloads) .fresh arrivals).reorderBuf.keys,
        (Runs.final (arrive payloads) .fresh arrivals).reorderNext < seq := by
  obtain ⟨k,reached,wrote⟩ := arrivals_reached few arrivals (reached_fresh payloads) numbered fine
  have listed (j : Nat) : j ∈ [] ++ arrivals.map (· - 1) ↔ j + 1 ∈ arrivals := by
    simp only [nil_append,mem_map]
    constructor
    · rintro ⟨seq,member,rfl⟩
      have := (numbered seq member).1
      rwa [Nat.sub_add_cancel this]
    · intro member
      exact ⟨j + 1,member,rfl⟩
  refine ⟨k,⟨?_,?_⟩,by simpa [written] using wrote,reached_buffered few reached⟩
  · intro j first last
    have arrived := (listed (j - 1)).mp (reached.missing.before (j - 1) (by omega))
    rwa [Nat.sub_add_cancel first] at arrived
  · intro j all
    by_contra beyond
    exact reached.missing.first ((listed k).mpr (all (k + 1) (by omega) (by omega)))

/-- Three payloads, the last first and twice. -/
theorem reorder_three : ∃ k, IsGreatest {k | ∀ j, 1 ≤ j → j ≤ k → j ∈ [3,1,3]} k ∧
    written [[1],[2],[3]] [3,1,3] = ([[1],[2],[3]].take k).flatten ∧
    ∀ seq ∈ (Runs.final (arrive [[1],[2],[3]]) .fresh [3,1,3]).reorderBuf.keys,
      (Runs.final (arrive [[1],[2],[3]]) .fresh [3,1,3]).reorderNext < seq :=
  reorder_correct [[1],[2],[3]] (by decide) [3,1,3] (by decide) (by decide)

end TunnelCat.Reorder
