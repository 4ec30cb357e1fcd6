import TunnelCat.LogStore

/-!
What `evictIfNeeded` of the log store removes when every file can be listed and removed: the oldest logs, and no more of
them than the cap asks for (`evicts_oldest`). So a store whose archives are no larger than the cap never
holds more than the cap (`store_capped`).
-/
namespace TunnelCat.LogStore
open Runs Selection List Table

abbrev Entry := Sigma fun _ : Path => File

def logsOf (files : Files) : List Entry := files.entries.filter (fun e => isLog e.1.name)

def bytesOf (logs : List Entry) : Int := (logs.map (fun e => (e.2.bytes.length : Int))).sum

section
variable {a : Around} {files : Files} {e : Entry} {rest : List Entry}

@[simp] theorem bytesOf_cons (e : Entry) (rest : List Entry) : bytesOf (e :: rest) = e.2.bytes.length + bytesOf rest := by
  simp [bytesOf]

theorem bytesOf_perm {logs : List Entry} (perm : logs.Perm rest) : bytesOf logs = bytesOf rest := by
  induction perm with
  | nil => rfl
  | cons e _ ih => simp [ih]
  | swap e e' rest => simp only [bytesOf_cons]; omega
  | trans _ _ ih ih' => exact ih.trans ih'

theorem mem_logsOf : e ∈ logsOf files ↔ files.lookup e.1 = some e.2 ∧ isLog e.1.name = true := by
  rw [logsOf,mem_filter]
  exact and_congr_left' AList.mem_lookup_iff.symm

theorem logsOf_nodup (files : Files) : (logsOf files).Nodup := files.nodupKeys.nodup.filter _

theorem logsOf_erase (all : (logsOf files).Perm (e :: rest)) : (logsOf (files.erase e.1)).Perm rest := by
  have distinct := all.nodup_iff.mp (logsOf_nodup files)
  refine (perm_ext_iff_of_nodup (logsOf_nodup _) distinct.of_cons).mpr fun e' => ?_
  have listed (x : Entry) := mem_logsOf.symm.trans (all.mem_iff (a := x))
  rw [mem_logsOf,lookup_erase_of]
  by_cases same : e'.1 = e.1
  · -- no other log has the path
    have absent : e' ∉ rest := by
      intro later
      have there := ((listed e').mpr (mem_cons_of_mem e later)).1
      rw [same,((listed e).mpr mem_cons_self).1] at there
      obtain rfl : e = e' := Sigma.ext same.symm (heq_of_eq (Option.some.inj there))
      exact (nodup_cons.mp distinct).1 later
    simp [same,absent]
  · rw [if_neg same,listed,mem_cons]
    exact or_iff_right (fun equal => same (by rw [equal]))

theorem evictLoop_spec (removes : ∀ p, a.removeFails p = false) (incoming : Nat) : ∀ (logs : List Entry) (files : Files),
    (logsOf files).Perm logs → ∃ removed kept, logs = removed ++ kept ∧
      (logsOf (evictLoop a incoming logs (bytesOf logs) files)).Perm kept ∧
      (bytesOf kept + incoming ≤ logMaxTotalBytes ∨ kept = []) ∧
      (∀ e ∈ removed.getLast?, logMaxTotalBytes < bytesOf (e :: kept) + incoming) ∧
      ∀ p, (evictLoop a incoming logs (bytesOf logs) files).lookup p = if p ∈ removed.map Sigma.fst then none else files.lookup p := by
  intro logs
  induction logs with
  | nil => exact fun files all => ⟨[],[],rfl,all,.inr rfl,by simp,by simp [evictLoop]⟩
  | cons e rest ih =>
    intro files all
    by_cases fits : bytesOf (e :: rest) + incoming ≤ logMaxTotalBytes
    · exact ⟨[],e :: rest,rfl,by rw [evictLoop,if_pos fits]; exact all,.inl fits,by simp,fun p => by rw [evictLoop,if_pos fits]; simp⟩
    · obtain ⟨removed,kept,parts,left,enough,last,others⟩ := ih (files.erase e.1) (logsOf_erase all)
      have turn : evictLoop a incoming (e :: rest) (bytesOf (e :: rest)) files =
          evictLoop a incoming rest (bytesOf rest) (files.erase e.1) := by
        rw [evictLoop,if_neg fits,removes,bytesOf_cons]
        congr 1
        omega
      refine ⟨e :: removed,kept,by rw [parts]; rfl,by rw [turn]; exact left,enough,?_,?_⟩
      · cases removed with
        | nil =>
          intro e' same
          obtain rfl : e = e' := by simpa using same
          rw [nil_append] at parts
          rw [← parts]
          omega
        | cons first removed => exact last
      · intro p
        rw [turn,others,lookup_erase_of]
        grind

/-- Every file can be listed and every removal succeeds. -/
def Around.Clear (a : Around) : Prop := ∀ p, a.infoFails p = false ∧ a.removeFails p = false

theorem logs_sorted (clear : a.Clear) (files : Files) :
    (a.byAge ((a.walk.entries files).filter (fun e => isLog e.1.name && !a.infoFails e.1))).Perm (logsOf files) := by
  have all : (fun e : Entry => isLog e.1.name && !a.infoFails e.1) = fun e => isLog e.1.name := by
    funext e
    simp [clear e.1]
  rw [all]
  exact (a.sorts.perm _).trans ((a.walk.entries_perm files).filter _)

theorem evict_within (clear : a.Clear) (files : Files) (incoming : Nat) :
    bytesOf (logsOf (evictIfNeeded a files incoming)) + incoming ≤ logMaxTotalBytes ∨
      bytesOf (logsOf (evictIfNeeded a files incoming)) = 0 := by
  obtain ⟨removed,kept,-,left,enough,-⟩ := evictLoop_spec (fun p => (clear p).2) incoming _ files (logs_sorted clear files).symm
  rw [bytesOf_perm (a.sorts.perm _)] at left
  have same : bytesOf (logsOf (evictIfNeeded a files incoming)) = bytesOf kept := bytesOf_perm left
  rw [same]
  exact enough.imp_right (fun none => by rw [none]; rfl)

theorem bytesOf_sublist {logs : List Entry} (fewer : logs.Sublist rest) : bytesOf logs ≤ bytesOf rest := by
  induction fewer with
  | slnil => exact le_refl _
  | cons e _ ih => rw [bytesOf_cons]; omega
  | cons_cons e _ ih => rw [bytesOf_cons,bytesOf_cons]; omega

theorem bytesOf_insert (files : Files) (p : Path) (f : File) :
    bytesOf (logsOf (files.insert p f)) ≤ f.bytes.length + bytesOf (logsOf files) := by
  have fewer : ((files.entries.kerase p).filter (fun e => isLog e.1.name)).Sublist (logsOf files) :=
    (kerase_sublist p files.entries).filter _
  have less := bytesOf_sublist fewer
  rw [logsOf,AList.entries_insert,filter_cons]
  split
  · rw [bytesOf_cons]
    exact Int.add_le_add_left less _
  · exact Int.le_trans less (by omega)

end

/-- When every file can be listed and removed, the logs that are removed are the first in an order by age, the others
    stay as they are, what stays is within the cap unless nothing does, and with the newest removed log it would not be. -/
theorem evicts_oldest (a : Around) (files : Files) (incoming : Nat) (clear : a.Clear) :
    ∃ removed kept, (removed ++ kept).Perm (logsOf files) ∧
      (removed ++ kept).Pairwise (fun e e' => e.2.modTime ≤ e'.2.modTime) ∧
      (logsOf (evictIfNeeded a files incoming)).Perm kept ∧
      (bytesOf kept + incoming ≤ logMaxTotalBytes ∨ kept = []) ∧
      (∀ e ∈ removed.getLast?, logMaxTotalBytes < bytesOf (e :: kept) + incoming) ∧
      ∀ p, (evictIfNeeded a files incoming).lookup p = if p ∈ removed.map Sigma.fst then none else files.lookup p := by
  have sorted := logs_sorted clear files
  obtain ⟨removed,kept,parts,left,enough,last,others⟩ := evictLoop_spec (fun p => (clear p).2) incoming _ files sorted.symm
  rw [bytesOf_perm (a.sorts.perm _)] at left others
  refine ⟨removed,kept,parts ▸ sorted,?_,left,enough,last,others⟩
  rw [← parts]
  exact (a.sorts.sorted _).imp (fun later => by simpa [lessBy] using later)

def samplePath (name : String) : Path := ⟨"android","device-1",name⟩

def sampleLog (byte : UInt8) (n : Nat) : File := ⟨[byte],n.succ,"device-1",Int.natCast_succ_pos n⟩

/-- Two logs of one byte; the newer one comes first on the disk. -/
def sampleFiles : Files := ((∅ : Files).insert (samplePath "old.zip") (sampleLog 7 0)).insert (samplePath "new.zip") (sampleLog 8 1)

/-- One byte is too many: the older log goes and the newer one stays. -/
theorem evicts_oldest_of_two :
    (∃ removed kept, (removed ++ kept).Perm (logsOf sampleFiles) ∧
      (removed ++ kept).Pairwise (fun e e' => e.2.modTime ≤ e'.2.modTime) ∧
      (logsOf (evictIfNeeded sampleAround sampleFiles (logMaxTotalBytes - 1))).Perm kept ∧
      (bytesOf kept + (logMaxTotalBytes - 1 : Nat) ≤ logMaxTotalBytes ∨ kept = []) ∧
      (∀ e ∈ removed.getLast?, logMaxTotalBytes < bytesOf (e :: kept) + (logMaxTotalBytes - 1 : Nat)) ∧
      ∀ p, (evictIfNeeded sampleAround sampleFiles (logMaxTotalBytes - 1)).lookup p =
        if p ∈ removed.map Sigma.fst then none else sampleFiles.lookup p) ∧
    ((evictIfNeeded sampleAround sampleFiles (logMaxTotalBytes - 1)).lookup (samplePath "old.zip")).isSome = false ∧
    ((evictIfNeeded sampleAround sampleFiles (logMaxTotalBytes - 1)).lookup (samplePath "new.zip")).isSome = true :=
  ⟨evicts_oldest sampleAround sampleFiles _ (fun _ => ⟨rfl,rfl⟩),by decide,by decide⟩

/-- The worker can list and remove every file and no archive is larger than the cap. -/
def Works (w : World) (s : Store) : Input → Prop
  | .works a => a.Clear ∧ ∀ work ∈ s.workCh.head?, ∀ new ∈ w.writes a.stamp work, new.bytes.length ≤ logMaxTotalBytes
  | _ => True

theorem step_capped {w : World} {s : Store} {i : Input} (works_ : Works w s i)
    (capped : bytesOf (logsOf s.files) ≤ logMaxTotalBytes) : bytesOf (logsOf (step w s i).1.files) ≤ logMaxTotalBytes := by
  obtain ⟨a,rfl⟩ | ⟨same,-⟩ := step_files w "" s i
  · obtain ⟨clear,small⟩ := works_
    show bytesOf (logsOf (works w a s).files) ≤ logMaxTotalBytes
    unfold works
    cases queue : s.workCh with
    | nil => exact capped
    | cons work rest =>
      have written := small work (by simp [queue])
      dsimp only
      cases new_ : w.writes a.stamp work with
      | none =>
        rcases evict_within clear s.files 0 with within | empty <;> dsimp only <;> omega
      | some new =>
        have fits := written new new_
        have kept := evict_within clear s.files new.bytes.length
        have more := bytesOf_insert (evictIfNeeded a s.files new.bytes.length) new.path ⟨new.bytes,a.now,new.nodeID,a.dated⟩
        dsimp only [put] at more ⊢
        split
        · exact capped
        · split <;> omega
  · rw [same]
    exact capped

/-- In every run in which files can be listed and removed and no archive is larger than the cap, the store keeps to
    the cap. -/
theorem store_capped (w : World) (inputs : List Input) (works_ : Along (step w) (Works w) empty inputs) :
    bytesOf (logsOf (final (step w) empty inputs).files) ≤ logMaxTotalBytes :=
  state_along (P := fun s => bytesOf (logsOf s.files) ≤ logMaxTotalBytes) (fun _ _ => step_capped) works_ (by decide)

/-- Every archive is as large as the cap. -/
def fullWorld : World := ⟨fun _ _ => replicate logMaxTotalBytes 0,id⟩

def uploadOf (nodeID : String) (a : Around) : List Input := [.store "android" nodeID "" [],.works a]

/-- The second archive takes the place of the first. -/
theorem store_capped_full :
    Along (step fullWorld) (Works fullWorld) empty (uploadOf "device-1" sampleAround ++ uploadOf "device-2" sampleAround) ∧
    bytesOf (logsOf (final (step fullWorld) empty (uploadOf "device-1" sampleAround)).files) = logMaxTotalBytes ∧
    bytesOf (logsOf (final (step fullWorld) empty (uploadOf "device-1" sampleAround ++ uploadOf "device-2" sampleAround)).files) ≤
      logMaxTotalBytes := by
  have works_ : Along (step fullWorld) (Works fullWorld) empty
      (uploadOf "device-1" sampleAround ++ uploadOf "device-2" sampleAround) := by
    have small (s : Store) (nodeID : String) (queue : s.workCh = [.upload ⟨"android",nodeID,"",[]⟩]) :
        Works fullWorld s (.works sampleAround) := by
      refine ⟨fun _ => ⟨rfl,rfl⟩,?_⟩
      rw [queue]
      rintro _ ⟨⟩ _ ⟨⟩
      exact le_of_eq length_replicate
    exact ⟨trivial,small _ "device-1" rfl,trivial,small _ "device-2" rfl,trivial⟩
  have one : logsOf (final (step fullWorld) empty (uploadOf "device-1" sampleAround)).files =
      [⟨samplePath "20260815_120000_device-1.zip",⟨replicate logMaxTotalBytes 0,1,"device-1",by decide⟩⟩] := rfl
  refine ⟨works_,?_,store_capped _ _ works_⟩
  rw [one,bytesOf_cons,length_replicate]
  rfl

end TunnelCat.LogStore
