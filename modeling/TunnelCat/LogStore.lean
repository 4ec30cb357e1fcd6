import Mathlib.Algebra.Group.Nat.Defs
import Mathlib.Algebra.Order.Ring.Int
import Mathlib.Data.List.Infix
import TunnelCat.LogUpload
import TunnelCat.Runs
import TunnelCat.Selection
import TunnelCat.Table

/-!
The store of uploaded logs on the arbiter (`snc-arbiter/log_store.go`): each upload is a file in a directory
that is named after the user or, without one, after the node; the oldest are evicted. `Get` returns the latest
file whose directory or name contains the node's id, anywhere.
-/
namespace TunnelCat.LogStore
open Runs Selection List
open LogUpload (LogWork validNodeType nodeTypeOf validLogNodeID logQueueDepth)

structure Path where
  nodeType : String
  key : String
  name : String
deriving DecidableEq

structure File where
  bytes : List UInt8
  modTime : Int
  nodeID : String
  dated : 0 < modTime
deriving DecidableEq

abbrev Files := Table Path File

structure Stamp where
  text : String
  length : text.length = 15
  digits : ∀ c ∈ text.toList, c.isDigit ∨ c = '_'

inductive Work
  | upload (w : LogWork)
  | raw (nodeType nodeID : String) (plain : List UInt8)
  | evict

structure Store where
  files : Files
  workCh : List Work

/-- The functions of the Go library: an archive with one entry of a given name, and `gzip`. -/
structure World where
  zipWrap : String → List UInt8 → List UInt8
  gzip : List UInt8 → List UInt8

/-- What the worker meets: the clock as text and as the time of the new file, the order in which
    the walk meets the files and the one that the sort leaves between files of one time, the
    files that the walk cannot list and those that cannot be removed, and whether the work before the eviction
    (the directory and the archive) or the write after it fails. -/
structure Around where
  stamp : Stamp
  now : Int
  dated : 0 < now
  walk : Table.Range Path File
  byAge : List (Sigma fun _ : Path => File) → List (Sigma fun _ : Path => File)
  sorts : Sorts (lessBy fun e => e.2.modTime) byAge
  infoFails : Path → Bool
  removeFails : Path → Bool
  prepareFails : Bool
  writeFails : Bool

def safe (c : Char) : Bool :=
  ('a' ≤ c && c ≤ 'z') || ('A' ≤ c && c ≤ 'Z') || ('0' ≤ c && c ≤ '9') || c = '-' || c = '_'

def sanitizeDirKey (s : String) : String :=
  let clean := s.toList.map (fun c => if safe c then c else '-')
  if clean = [] then "unknown" else String.ofList (clean.take 64)

def isLog (name : String) : Bool := ".log.gz".toList.isSuffixOf name.toList || ".zip".toList.isSuffixOf name.toList

def logMaxTotalBytes : Nat := 500 * 2 ^ 30

def evictLoop (a : Around) (incoming : Nat) : List (Sigma fun _ : Path => File) → Int → Files → Files
  | [], _, files => files
  | e :: rest, total, files =>
    if total + incoming ≤ logMaxTotalBytes then files
    else evictLoop a incoming rest (total - e.2.bytes.length) (if a.removeFails e.1 then files else files.erase e.1)

variable (w : World) (a : Around) (files : Files) (stamp : Stamp) (s : Store) (nodeID : String)

def evictIfNeeded (incoming : Nat) : Files :=
  let logs := (a.walk.entries files).filter (fun e => isLog e.1.name && !a.infoFails e.1)
  evictLoop a incoming (a.byAge logs) (logs.map (fun e => (e.2.bytes.length : Int))).sum files

structure Writes where
  path : Path
  bytes : List UInt8
  nodeID : String

def World.write (u : LogWork) : Writes :=
  ⟨⟨u.nodeType,if u.username ≠ "" then sanitizeDirKey u.username else u.nodeID,stamp.text ++ "_" ++ u.nodeID ++ ".zip"⟩,
    w.zipWrap u.nodeID u.data,u.nodeID⟩

def World.writeRaw (nodeType nodeID : String) (plain : List UInt8) : Writes :=
  ⟨⟨nodeType,nodeID,stamp.text ++ ".log.gz"⟩,w.gzip plain,nodeID⟩

def World.writes : Work → Option Writes
  | .upload u => some (w.write stamp u)
  | .raw nodeType nodeID plain => some (w.writeRaw stamp nodeType nodeID plain)
  | .evict => none

def put (new : Writes) : Files :=
  if a.prepareFails then files
  else
    let kept := evictIfNeeded a files new.bytes.length
    if a.writeFails then kept else kept.insert new.path ⟨new.bytes,a.now,new.nodeID,a.dated⟩

def works : Store :=
  match s.workCh with
  | [] => s
  | work :: rest =>
    match w.writes a.stamp work with
    | none => ⟨evictIfNeeded a s.files 0,rest⟩
    | some new => ⟨put a s.files new,rest⟩

structure Looks where
  walk : Table.Range Path File
  infoFails : Path → Bool
  readFails : Bool

def Path.matches (p : Path) (nodeID : String) : Bool :=
  isLog p.name && (p.key = nodeID || decide (nodeID.toList <:+: p.name.toList))

def newestFrom (g : Looks) (nodeID : String) : Option Path → Int → List (Sigma fun _ : Path => File) → Option Path
  | newest, _, [] => newest
  | newest, newestTime, e :: rest =>
    if e.1.matches nodeID && !g.infoFails e.1 && newestTime < e.2.modTime then newestFrom g nodeID (some e.1) e.2.modTime rest
    else newestFrom g nodeID newest newestTime rest

def newest (g : Looks) (files : Files) (nodeID : String) : Option Path := newestFrom g nodeID none 0 (g.walk.entries files)

inductive GetError
  | invalidNodeID
  | noLogs
  | read

def get (g : Looks) (files : Files) (nodeID : String) : Except GetError (List UInt8) :=
  if validLogNodeID nodeID = false then .error .invalidNodeID
  else
    match newest g files nodeID with
    | none => .error .noLogs
    | some path =>
      match files.lookup path with
      | none => .error .read
      | some f => if g.readFails then .error .read else .ok f.bytes

inductive Input
  | store (nodeType nodeID username : String) (data : List UInt8)
  | storeRaw (nodeType nodeID : String) (plain : List UInt8)
  | cleanup
  | works (a : Around)

def Store.enqueue (work : Work) : Store :=
  if s.workCh.length < logQueueDepth then { s with workCh := s.workCh ++ [work] } else s

/-- A call returns whether the id was valid. The tick of the cleanup waits for room in the channel. -/
def step : Input → Store × Bool
  | .store nodeType nodeID username data =>
    if validLogNodeID nodeID then (s.enqueue (.upload ⟨nodeTypeOf nodeType,nodeID,username,data⟩),true) else (s,false)
  | .storeRaw nodeType nodeID plain =>
    if validLogNodeID nodeID then (s.enqueue (.raw (if validNodeType nodeType then nodeType else "arbiter") nodeID plain),true)
    else (s,false)
  | .cleanup => (s.enqueue .evict,true)
  | .works a => (works w a s,true)

def empty : Store := ⟨∅,[]⟩

/-- What `Get` returns is the content of a file that was stored for the node. -/
def Precise : Prop :=
  ∀ (g : Looks) bytes, get g files nodeID = .ok bytes →
    ∃ path f, newest g files nodeID = some path ∧ files.lookup path = some f ∧ f.bytes = bytes ∧ f.nodeID = nodeID

/-- What the step writes is the node's own or does not match its id. -/
def Apart (s : Store) : Input → Prop
  | .works a => validLogNodeID nodeID = true → a.prepareFails = false → a.writeFails = false →
      ∀ work ∈ s.workCh.head?, ∀ new ∈ w.writes a.stamp work, new.path.matches nodeID = true → new.nodeID = nodeID
  | _ => True

variable {w} {g : Looks} {files} {nodeID}
variable {path : Path} {newestTime : Int} {f : File}

theorem newestFrom_some {newest : Option Path} (entries : List (Sigma fun _ : Path => File))
    (found : newestFrom g nodeID newest newestTime entries = some path) :
    newest = some path ∨ ∃ e ∈ entries, e.1 = path ∧ e.1.matches nodeID = true := by
  induction entries generalizing newest newestTime with
  | nil => exact .inl found
  | cons e rest ih =>
    grind [newestFrom]

theorem newest_matches (found : newest g files nodeID = some path) : path.matches nodeID = true := by
  rcases newestFrom_some _ found with none_ | ⟨e,-,rfl,fits⟩
  · cases none_
  · exact fits

def onlySees (path : Path) : Looks := ⟨.asKept _ _,fun p => decide (p ≠ path),false⟩

theorem newestFrom_passes {newest : Option Path} (entries : List (Sigma fun _ : Path => File))
    (absent : ∀ e ∈ entries, e.1 ≠ path) : newestFrom (onlySees path) nodeID newest newestTime entries = newest := by
  induction entries with
  | nil => rfl
  | cons e rest ih =>
    grind [newestFrom,onlySees]

theorem newest_onlySees (there : files.lookup path = some f) (fits : path.matches nodeID = true) :
    newest (onlySees path) files nodeID = some path := by
  have member := AList.mem_lookup_iff.mp there
  obtain ⟨before,after,split_⟩ := append_of_mem member
  have apart : (files.entries.map Sigma.fst).Nodup := files.nodupKeys
  show newestFrom (onlySees path) nodeID none 0 files.entries = some path
  rw [split_] at apart ⊢
  rw [map_append,map_cons,nodup_append,nodup_cons] at apart
  have earlier : ∀ e ∈ before, e.1 ≠ path := by
    grind [mem_cons_self]
  have later : ∀ e ∈ after, e.1 ≠ path := by
    rintro e inside rfl
    exact apart.2.1.1 (mem_map.mpr ⟨e,inside,rfl⟩)
  clear split_ apart member
  induction before with
  | nil =>
    grind [newestFrom,onlySees,f.dated,newestFrom_passes]
  | cons e before ih =>
    have other := earlier e mem_cons_self
    rw [cons_append,newestFrom,if_neg (by simp [onlySees,other])]
    exact ih (fun e' inside => earlier e' (mem_cons_of_mem e inside))

theorem precise_iff (valid : validLogNodeID nodeID = true) :
    Precise files nodeID ↔ ∀ path f, files.lookup path = some f → path.matches nodeID = true → f.nodeID = nodeID := by
  constructor
  · intro precise path f there fits
    have found := newest_onlySees there fits
    have read : get (onlySees path) files nodeID = .ok f.bytes := by
      unfold get
      simp only [valid,found,there]
      rfl
    obtain ⟨path',f',found',there',-,own⟩ := precise _ _ read
    cases found.symm.trans found'
    cases there.symm.trans there'
    exact own
  · intro own g bytes read
    grind [get,newest_matches]

theorem precise_of_invalid (invalid : validLogNodeID nodeID = false) : Precise files nodeID := by
  intro g bytes read
  simp [get,invalid] at read

variable {a} {s}

theorem lookup_evictLoop {incoming : Nat} (entries : List (Sigma fun _ : Path => File)) (total : Int) :
    ∀ {files : Files}, (evictLoop a incoming entries total files).lookup path = some f → files.lookup path = some f := by
  induction entries generalizing total with
  | nil => exact fun there => there
  | cons e rest ih =>
    grind [evictLoop]

theorem lookup_evictIfNeeded {incoming : Nat} (there : (evictIfNeeded a files incoming).lookup path = some f) :
    files.lookup path = some f :=
  lookup_evictLoop _ _ there

theorem lookup_put {new : Writes} (there : (put a files new).lookup path = some f) :
    files.lookup path = some f ∨ a.prepareFails = false ∧ a.writeFails = false ∧ path = new.path ∧ f.nodeID = new.nodeID := by
  unfold put at there
  grind [lookup_evictIfNeeded]

theorem enqueue_files (s : Store) (work : Work) : (s.enqueue work).files = s.files := by
  unfold Store.enqueue
  split <;> rfl

theorem step_files (w : World) (nodeID : String) (s : Store) (i : Input) : (∃ a, i = .works a) ∨ (step w s i).1.files = s.files ∧ Apart w nodeID s i := by
  cases i with
  | works a => exact .inl ⟨a,rfl⟩
  | store nodeType id username data =>
    refine .inr ⟨?_,trivial⟩
    simp only [step]
    split
    · exact enqueue_files s _
    · rfl
  | storeRaw nodeType id plain =>
    refine .inr ⟨?_,trivial⟩
    simp only [step]
    split
    · exact enqueue_files s _
    · rfl
  | cleanup => exact .inr ⟨enqueue_files s .evict,trivial⟩

theorem put_precise_iff {new : Writes} (valid : validLogNodeID nodeID = true) (precise : Precise files nodeID) :
    Precise (put a files new) nodeID ↔ (a.prepareFails = false → a.writeFails = false → new.path.matches nodeID = true → new.nodeID = nodeID) := by
  rw [precise_iff valid] at precise ⊢
  constructor
  · intro own prepares writes fits
    have there : (put a files new).lookup new.path = some ⟨new.bytes,a.now,new.nodeID,a.dated⟩ := by
      simp [put,prepares,writes]
    exact own new.path _ there fits
  grind [lookup_put]

theorem works_precise_iff (valid : validLogNodeID nodeID = true) (precise : Precise s.files nodeID) :
    Precise (works w a s).files nodeID ↔ Apart w nodeID s (.works a) := by
  grind [works,Apart,precise_iff,lookup_evictIfNeeded,put_precise_iff]

theorem step_precise_iff {i : Input} (precise : Precise s.files nodeID) : Precise (step w s i).1.files nodeID ↔ Apart w nodeID s i := by
  obtain ⟨a,rfl⟩ | ⟨same,apart⟩ := step_files w nodeID s i
  · cases valid : validLogNodeID nodeID with
    | false => exact iff_of_true (precise_of_invalid valid) (fun right => by cases valid.symm.trans right)
    | true => exact works_precise_iff valid precise
  · rw [same]
    exact iff_of_true precise apart

/-- `Get` is precise for a node after every part of a run exactly when no file of another node
    that is written in the run matches its id. -/
theorem get_precise_iff (w : World) (nodeID : String) (inputs : List Input) :
    (∀ first rest, inputs = first ++ rest → Precise (final (step w) empty first).files nodeID) ↔
      Along (step w) (Apart w nodeID) empty inputs := by
  have nothing : Precise empty.files nodeID := by
    cases valid : validLogNodeID nodeID with
    | false => exact precise_of_invalid valid
    | true => exact (precise_iff valid).mpr fun path f there => by cases there
  exact states_iff_along (P := fun s => Precise s.files nodeID) (J := fun _ => True)
    (fun s i precise _ apart => ⟨(step_precise_iff precise).mpr apart,trivial⟩)
    (fun s i precise _ => (step_precise_iff precise).mp) inputs empty nothing trivial

def sampleWorld : World := ⟨fun _ data => data,id⟩

def sampleAround : Around where
  stamp := ⟨"20260815_120000",by decide,by simp⟩
  now := 1
  dated := by decide
  walk := .asKept _ _
  byAge := insertSort (fun e => e.2.modTime)
  sorts := insertSort_sorts _
  infoFails _ := false
  removeFails _ := false
  prepareFails := false
  writeFails := false

def sampleUpload : List Input := [.store "android" "device-12" "" [7],.works sampleAround]

/-- The log of `device-12` is returned for `device-1`, which has stored nothing. -/
theorem other_device_returned :
    ¬ ∀ (w : World) (nodeID : String) (inputs first rest : List Input), inputs = first ++ rest →
      Precise (final (step w) empty first).files nodeID := by
  intro always
  have precise := always sampleWorld "device-1" sampleUpload sampleUpload [] (append_nil _).symm
  have valid : validLogNodeID "device-1" = true := by decide
  have own := (precise_iff valid).mp precise ⟨"android","device-12","20260815_120000_device-12.zip"⟩
    ⟨[7],1,"device-12",by decide⟩ (by decide) (by decide)
  exact absurd own (by decide)

end TunnelCat.LogStore
