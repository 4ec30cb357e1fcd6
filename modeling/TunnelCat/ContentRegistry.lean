import TunnelCat.Ideal
import TunnelCat.Marshal
import TunnelCat.Runs

/-!
The content manifest of a control (`snc-control/content_manifest.go`) and its gossip by the DHT node
(`dht/dht_content.go`). Only a refresh that finds `OnNew` set tells the DHT node of its manifest, and
that is set late (`gossip_current_iff`). A refresh does not look at the signature, so an answer with
a time in the far future keeps out those of the arbiter (`genuine_progress`).
-/
namespace TunnelCat.ContentRegistry
open Runs

structure ContentFileEntry where
  path : String
  size : Int64
  chunkSize : Int64
  chunkHashes : List String

def encodeSlice {α : Type} (encode : α → Json) (items : List α) : Json :=
  if items.isEmpty then .null else .arr (items.map encode)

def ContentFileEntry.fields : List (Field ContentFileEntry) :=
  [.always "path" Codec.string ContentFileEntry.path,
   .always "size" Codec.int64 ContentFileEntry.size,
   .always "chunk_size" Codec.int64 ContentFileEntry.chunkSize,
   ⟨"chunk_hashes",fun f => some (encodeSlice Json.str f.chunkHashes)⟩]

structure SignedContentManifest where
  type : String
  ts : Int64
  files : List ContentFileEntry
  sig : String

namespace SignedContentManifest

def payload : List (Field SignedContentManifest) :=
  [.always "type" Codec.string type,
   .always "ts" Codec.int64 ts,
   ⟨"files",fun m => some (encodeSlice (Json.marshal ContentFileEntry.fields) m.files)⟩]

def fields : List (Field SignedContentManifest) := payload ++ [.always "sig" Codec.string sig]

end SignedContentManifest

variable (S : Signatures Json) (data : Body)

def signContentManifest (priv : S.Secret) (now : Int64) (files : List ContentFileEntry) : Json :=
  let m : SignedContentManifest := ⟨"content",now,files,""⟩
  let sig := S.sign priv (Json.marshal SignedContentManifest.payload m)
  Json.marshal SignedContentManifest.fields { m with sig := S.sigText sig }

def headerTS : Option Int64 :=
  data.unmarshal.bind (fun doc => if (doc.field "ts" Json.int64 0).ok then some (doc.field "ts" Json.int64 0).value else none)

/-- What comes of asking an exit: there is none, the request cannot be made, it fails, or a status
    with a body, none if that cannot be read. -/
inductive Answer
  | noExit
  | noRequest
  | unreachable
  | status (code : Nat) (body : Option Body)

def Answer.manifest : Answer → Option (Body × Int64)
  | .status 200 (some data) =>
    match headerTS data with
    | none => none
    | some ts => if ts = 0 then none else some (data,ts)
  | _ => none

inductive Persist
  | noDirectory
  | notOpened
  | cut (raw : List UInt8)
  | whole

def persist (how : Persist) (file : Option Body) (data : Body) : Option Body :=
  match how with
  | .noDirectory | .notOpened => file
  | .cut raw => some (.other raw)
  | .whole => some data

inductive Main
  | loads
  | starts
  | wires
  | serves
deriving DecidableEq

/-- A refresh is before its critical section, before `persist`, before the call of what it found in
    `OnNew`. -/
inductive Refresh
  | compares (data : Body) (ts : Int64)
  | persists (data : Body) (ts : Int64) (onNew : Bool)
  | calls (data : Body) (ts : Int64) (onNew : Bool)

/-- Who stored a manifest; a refresh with or without `OnNew`. -/
inductive Source
  | cached
  | refreshed (onNew : Bool)

/-- A control: its disk, its registry, its goroutines and the DHT node. The code does not keep who
    stored the manifest. -/
structure Control where
  cacheFile : Option Body
  main : Main
  raw : Option Body
  ts : Int64
  stored : Option Source
  refreshing : Option Refresh
  contentRaw : Option Body
  contentTS : Int64

def start (cacheFile : Option Body) : Control := ⟨cacheFile,.loads,none,0,none,none,none,0⟩

variable (c : Control)

def loadCached (readFails : Bool) (c : Control) : Control :=
  match if readFails then none else c.cacheFile with
  | none => c
  | some data =>
    match headerTS data with
    | none => c
    | some ts => { c with raw := some data, ts := ts, stored := some .cached }

def mainRuns (readFails : Bool) (c : Control) : Control :=
  match c.main with
  | .loads => { loadCached readFails c with main := .starts }
  | .starts => { c with main := .wires }
  | .wires => { c with main := .serves }
  | .serves => c

def Control.canRefresh : Bool := (c.main = .wires || c.main = .serves) && c.refreshing.isNone

def Control.wired : Bool := c.main = .serves

def setContent (data : Body) (ts : Int64) : Control :=
  if ts > c.contentTS then { c with contentRaw := some data, contentTS := ts } else c

/-- A manifest that was compared with the registry's, and what the registry has after it. -/
structure Received where
  data : Body
  ts : Int64
  current : Option Body

def compare (data : Body) (ts : Int64) : Control :=
  if ts ≤ c.ts then { c with refreshing := none }
  else
    { c with
      raw := some data
      ts := ts
      stored := some (.refreshed c.wired)
      refreshing := some (.persists data ts c.wired) }

def refreshRuns (how : Persist) (c : Control) : Control × Option Received :=
  match c.refreshing with
  | none => (c,none)
  | some (.compares data ts) => (compare c data ts,some ⟨data,ts,(compare c data ts).raw⟩)
  | some (.persists data ts onNew) =>
    ({ c with cacheFile := persist how c.cacheFile data, refreshing := some (.calls data ts onNew) },none)
  | some (.calls data ts onNew) => ({ (if onNew then setContent c data ts else c) with refreshing := none },none)

inductive Input
  | main (readFails : Bool)
  | fetched (answer : Answer)
  | runs (how : Persist)
  | restart

def step : Input → Control × Option Received
  | .main readFails => (mainRuns readFails c,none)
  | .fetched answer =>
    if c.canRefresh then ({ c with refreshing := answer.manifest.map (fun m => .compares m.1 m.2) },none) else (c,none)
  | .runs how => refreshRuns how c
  | .restart => (start c.cacheFile,none)

def Control.Pending (data : Body) (ts : Int64) (onNew : Bool) : Prop :=
  c.refreshing = some (.persists data ts onNew) ∨ c.refreshing = some (.calls data ts onNew)

def Control.Announced : Prop := c.stored = some (.refreshed true) ∧ 0 < c.ts

structure Gossips (c : Control) : Prop where
  empty : c.stored = none ↔ c.raw = none
  fresh : c.main = .loads → c.stored = none
  waits : c.main = .loads ∨ c.main = .starts → c.refreshing = none
  wired : c.stored = some (.refreshed true) → c.main = .serves
  silent : ¬ c.Announced → c.contentRaw = none ∧ c.contentTS = 0
  bound : c.contentTS ≤ c.ts ∨ c.contentTS = 0
  pending : ∀ data ts onNew, c.Pending data ts onNew →
    c.raw = some data ∧ c.ts = ts ∧ c.stored = some (.refreshed onNew) ∧ (0 < ts → c.contentTS < ts)
  told : c.Announced → (∀ data ts onNew, ¬ c.Pending data ts onNew) → c.contentRaw = c.raw

section
variable {c : Control}

theorem told_kept (c : Control) (onNew : Bool) (data : Body) (ts : Int64) :
    (if onNew then setContent c data ts else c).main = c.main ∧ (if onNew then setContent c data ts else c).cacheFile = c.cacheFile ∧
      (if onNew then setContent c data ts else c).raw = c.raw ∧ (if onNew then setContent c data ts else c).ts = c.ts := by
  grind [setContent]

theorem start_gossips (file : Option Body) : Gossips (start file) := by
  refine ⟨by simp [start],by simp [start],by simp [start],by simp [start],by simp [start],.inr rfl,?_,?_⟩
  · simp [start,Control.Pending]
  · intro announced
    cases announced.1

theorem loadCached_gossips (readFails : Bool) (gossips : Gossips c) (begins : c.main = .loads) :
    Gossips { loadCached readFails c with main := .starts } := by
  have unstored := gossips.fresh begins
  have waits := gossips.waits (.inl begins)
  have silent := gossips.silent (fun announced => by cases unstored.symm.trans announced.1)
  have same : Gossips { c with main := .starts } := by
    refine ⟨gossips.empty,fun _ => unstored,fun _ => waits,?_,gossips.silent,gossips.bound,gossips.pending,gossips.told⟩
    intro stored
    cases unstored.symm.trans stored
  unfold loadCached
  split
  · exact same
  · split
    · exact same
    · refine ⟨by simp,by simp,fun _ => waits,by simp,fun _ => silent,.inr silent.2,?_,?_⟩
      · intro data ts onNew pending
        rcases pending with eq | eq <;> cases waits.symm.trans eq
      · intro announced
        cases announced.1

theorem mainRuns_gossips (readFails : Bool) (gossips : Gossips c) : Gossips (mainRuns readFails c) := by
  unfold mainRuns
  split
  · next begins => exact loadCached_gossips readFails gossips begins
  · next started =>
    refine ⟨gossips.empty,by simp,by simp,?_,gossips.silent,gossips.bound,gossips.pending,gossips.told⟩
    intro stored
    cases started.symm.trans (gossips.wired stored)
  · exact ⟨gossips.empty,by simp,by simp,fun _ => rfl,gossips.silent,gossips.bound,gossips.pending,gossips.told⟩
  · exact gossips

theorem Gossips.idle (gossips : Gossips c) (next : Option Refresh)
    (waits : c.main = .loads ∨ c.main = .starts → next = none) (idle : ∀ data ts onNew, ¬ c.Pending data ts onNew)
    (unstored : ∀ data ts onNew, ¬ ({ c with refreshing := next } : Control).Pending data ts onNew) :
    Gossips { c with refreshing := next } :=
  ⟨gossips.empty,gossips.fresh,waits,gossips.wired,gossips.silent,gossips.bound,
    fun data ts onNew pending => absurd pending (unstored data ts onNew),fun announced _ => gossips.told announced idle⟩

theorem fetched_gossips (answer : Answer) (gossips : Gossips c) (can : c.canRefresh = true) :
    Gossips { c with refreshing := answer.manifest.map (fun m => .compares m.1 m.2) } := by
  simp only [Control.canRefresh,Bool.and_eq_true,Option.isNone_iff_eq_none] at can
  refine gossips.idle _ ?_ (by simp [Control.Pending,can.2]) (by simp [Control.Pending])
  intro early
  rcases early with eq | eq <;> simp [eq] at can

theorem compare_gossips {data : Body} {ts : Int64} (gossips : Gossips c) (at_ : c.refreshing = some (.compares data ts)) :
    Gossips (compare c data ts) := by
  have idle : ∀ data ts onNew, ¬ c.Pending data ts onNew := by simp [Control.Pending,at_]
  have running : ¬ (c.main = .loads ∨ c.main = .starts) := fun early => by cases at_.symm.trans (gossips.waits early)
  unfold compare
  split
  · exact gossips.idle none (fun _ => rfl) idle (by simp [Control.Pending])
  · next newer =>
    have later : c.ts < ts := Int64.not_le.mp newer
    refine ⟨by simp,fun eq => absurd (.inl eq) running,fun early => absurd early running,?_,?_,?_,?_,?_⟩
    · simp [Control.wired]
    · intro quiet
      refine gossips.silent ?_
      rintro ⟨stored,positive⟩
      have wired : c.wired = true := by simp [Control.wired,gossips.wired stored]
      exact quiet ⟨by simp [wired],Int64.lt_trans positive later⟩
    · exact gossips.bound.imp_left (fun le => Int64.le_of_lt (Int64.lt_of_le_of_lt le later))
    · grind [Control.Pending,gossips.bound]
    · intro _ through
      exact absurd (.inl rfl) (through data ts c.wired)

theorem calls_gossips {data : Body} {ts : Int64} {onNew : Bool} (gossips : Gossips c)
    (at_ : c.refreshing = some (.calls data ts onNew)) :
    Gossips { (if onNew then setContent c data ts else c) with refreshing := none } := by
  obtain ⟨raw,rfl,stored,less⟩ := gossips.pending data ts onNew (.inr at_)
  have untold (announced : ¬ c.Announced) : Gossips { c with refreshing := none } :=
    ⟨gossips.empty,gossips.fresh,fun _ => rfl,gossips.wired,gossips.silent,gossips.bound,by simp [Control.Pending],
      fun told => absurd told announced⟩
  by_cases announced : c.Announced
  · obtain rfl : onNew = true := by simpa [stored] using announced.1
    simp only [setContent,if_pos (less announced.2)]
    exact ⟨gossips.empty,gossips.fresh,fun _ => rfl,gossips.wired,fun quiet => absurd announced quiet,.inl (Int64.le_refl _),
      by simp [Control.Pending],fun _ _ => raw.symm⟩
  · cases onNew with
    | false => exact untold announced
    | true =>
      have old : ¬ c.ts > c.contentTS := by
        rw [(gossips.silent announced).2]
        exact fun positive => announced ⟨stored,positive⟩
      simp only [setContent,if_neg old]
      exact untold announced

theorem refreshRuns_gossips (how : Persist) (gossips : Gossips c) : Gossips (refreshRuns how c).1 := by
  unfold refreshRuns
  split
  · exact gossips
  · next at_ => exact compare_gossips gossips at_
  · next data ts onNew at_ =>
    have running : ¬ (c.main = .loads ∨ c.main = .starts) := fun early => by cases at_.symm.trans (gossips.waits early)
    obtain ⟨raw,same,stored,less⟩ := gossips.pending data ts onNew (.inl at_)
    refine ⟨gossips.empty,gossips.fresh,fun early => absurd early running,gossips.wired,gossips.silent,gossips.bound,?_,?_⟩
    · grind [Control.Pending]
    · intro _ through
      exact absurd (.inr rfl) (through data ts onNew)
  · next at_ => exact calls_gossips gossips at_

theorem step_gossips (c : Control) (i : Input) (gossips : Gossips c) : Gossips (step c i).1 := by
  cases i with
  | main readFails => exact mainRuns_gossips readFails gossips
  | fetched answer =>
    grind [step,fetched_gossips]
  | runs how => exact refreshRuns_gossips how gossips
  | restart => exact start_gossips c.cacheFile

end

theorem gossip_current_iff (file : Option Body) (inputs : List Input)
    (finished : (final step (start file) inputs).refreshing = none) :
    (final step (start file) inputs).contentRaw = (final step (start file) inputs).raw ↔
      (final step (start file) inputs).raw = none ∨
        (final step (start file) inputs).stored = some (.refreshed true) ∧ 0 < (final step (start file) inputs).ts := by
  have gossips := state_run step_gossips inputs (start_gossips file)
  by_cases announced : (final step (start file) inputs).Announced
  · have told := gossips.told announced (by simp [Control.Pending,finished])
    exact ⟨fun _ => .inr announced,fun _ => told⟩
  · rw [(gossips.silent announced).1,eq_comm]
    exact (or_iff_left announced).symm

def sampleManifest (ts : Rat) : Body := .document (.obj [("ts",.num ts)])

def sampleBoot : List Input := [.main false,.main false,.main false]

def sampleRefresh : List Input := [.fetched (.status 200 (some data)),.runs .whole,.runs .whole,.runs .whole]

theorem gossip_current_refreshed :
    (final step (start none) (sampleBoot ++ sampleRefresh (sampleManifest 5))).contentRaw =
        (final step (start none) (sampleBoot ++ sampleRefresh (sampleManifest 5))).raw ↔
      (final step (start none) (sampleBoot ++ sampleRefresh (sampleManifest 5))).raw = none ∨
        (final step (start none) (sampleBoot ++ sampleRefresh (sampleManifest 5))).stored = some (.refreshed true) ∧
          0 < (final step (start none) (sampleBoot ++ sampleRefresh (sampleManifest 5))).ts :=
  gossip_current_iff none (sampleBoot ++ sampleRefresh (sampleManifest 5)) (by decide +kernel)

/-- A control that is restarted loads its manifest, and the arbiter has no newer one. -/
theorem cached_not_gossiped :
    ¬ ∀ (file : Option Body) (inputs : List Input), (final step (start file) inputs).wired = true →
      (final step (start file) inputs).refreshing = none →
      (final step (start file) inputs).contentRaw = (final step (start file) inputs).raw := by
  intro always
  have current := always (some (sampleManifest 5)) (sampleBoot ++ sampleRefresh (sampleManifest 5)) (by decide +kernel) (by decide +kernel)
  exact absurd (congrArg Option.isSome current) (by decide +kernel)

def Genuine (priv : S.Secret) (data : Body) : Prop :=
  ∃ now files, 0 < now ∧ data = .document (signContentManifest S priv now files)

theorem fields_distinct : Json.Distinct SignedContentManifest.fields := by decide

theorem headerTS_signed (priv : S.Secret) (now : Int64) (files : List ContentFileEntry) :
    headerTS (.document (signContentManifest S priv now files)) = some now := by
  have ts := Json.always_read fields_distinct 1 rfl ⟨"content",now,files,
    S.sigText (S.sign priv (Json.marshal SignedContentManifest.payload ⟨"content",now,files,""⟩))⟩
  grind [Codec.int64,headerTS,Body.unmarshal,signContentManifest]

theorem Genuine.ts_pos {S : Signatures Json} {priv : S.Secret} {data : Body} {ts : Int64} (genuine : Genuine S priv data)
    (header : headerTS data = some ts) : 0 < ts := by
  obtain ⟨now,files,positive,rfl⟩ := genuine
  grind [headerTS_signed]

/-- A genuine manifest, later than all before it that are. -/
def Record (priv : S.Secret) (past : List (Option Received)) (e : Received) : Prop :=
  Genuine S priv e.data ∧ ∀ e', some e' ∈ past → Genuine S priv e'.data → e'.ts < e.ts

/-- Each such manifest becomes the current one. -/
def Progress (priv : S.Secret) (shown : List (Option Received)) : Prop :=
  ∀ before e after, shown = before ++ some e :: after → Record S priv before e → e.current = some e.data

/-- Nothing before such a manifest has its time or a later one. -/
def Dated (priv : S.Secret) (shown : List (Option Received)) : Prop :=
  ∀ before e after, shown = before ++ some e :: after → Record S priv before e → ∀ e', some e' ∈ before → e'.ts < e.ts

def Seen (past : List (Option Received)) (ts : Int64) : Prop := ∃ e, some e ∈ past ∧ e.ts = ts

structure Sourced (past : List (Option Received)) (c : Control) : Prop where
  ts : c.ts = 0 ∨ Seen past c.ts
  file : ∀ data ∈ c.cacheFile, ∀ ts, headerTS data = some ts → Seen past ts
  compares : ∀ data ts, c.refreshing = some (.compares data ts) → headerTS data = some ts
  pending : ∀ data ts onNew, c.Pending data ts onNew → headerTS data = some ts ∧ Seen past ts

section
variable {c : Control} {past : List (Option Received)} {ts : Int64} {data : Body}

theorem Seen.later (seen : Seen past ts) (more : List (Option Received)) : Seen (past ++ more) ts :=
  seen.imp (fun _ => And.imp_left (List.mem_append_left more))

theorem Sourced.later (sourced : Sourced past c) (more : List (Option Received)) : Sourced (past ++ more) c :=
  ⟨sourced.ts.imp_right (fun seen => seen.later more),fun data there ts header => (sourced.file data there ts header).later more,
    sourced.compares,fun data ts onNew pending => (sourced.pending data ts onNew pending).imp_right (fun seen => seen.later more)⟩

theorem manifest_header {answer : Answer} (taken : answer.manifest = some (data,ts)) :
    headerTS data = some ts := by
  unfold Answer.manifest at taken
  grind

theorem loadCached_sourced (readFails : Bool) (sourced : Sourced past c) : Sourced past (loadCached readFails c) := by
  unfold loadCached
  split
  · exact sourced
  · next data there =>
    split
    · exact sourced
    · next ts header =>
      have file : c.cacheFile = some data := by
        split at there
        · cases there
        · exact there
      exact ⟨.inr (sourced.file data file ts header),sourced.file,sourced.compares,sourced.pending⟩

theorem mainRuns_sourced (readFails : Bool) (sourced : Sourced past c) : Sourced past (mainRuns readFails c) := by
  unfold mainRuns
  split
  · have loaded := loadCached_sourced readFails sourced
    exact ⟨loaded.ts,loaded.file,loaded.compares,loaded.pending⟩
  · exact ⟨sourced.ts,sourced.file,sourced.compares,sourced.pending⟩
  · exact ⟨sourced.ts,sourced.file,sourced.compares,sourced.pending⟩
  · exact sourced

theorem compare_sourced (sourced : Sourced past c) (at_ : c.refreshing = some (.compares data ts)) :
    Sourced (past ++ [some ⟨data,ts,(compare c data ts).raw⟩]) (compare c data ts) := by
  have header := sourced.compares data ts at_
  have seen : Seen (past ++ [some ⟨data,ts,(compare c data ts).raw⟩]) ts :=
    ⟨_,List.mem_append_right _ (List.mem_singleton_self _),rfl⟩
  have before := sourced.later [some ⟨data,ts,(compare c data ts).raw⟩]
  revert seen before
  generalize past ++ [some ⟨data,ts,(compare c data ts).raw⟩] = shown
  intro seen before
  unfold compare
  split
  · exact ⟨before.ts,before.file,by simp,by simp [Control.Pending]⟩
  · refine ⟨.inr seen,before.file,by simp,?_⟩
    grind [Control.Pending]

variable (how : Persist)

theorem persist_sourced {onNew : Bool} (sourced : Sourced past c)
    (at_ : c.refreshing = some (.persists data ts onNew)) :
    Sourced past { c with cacheFile := persist how c.cacheFile data, refreshing := some (.calls data ts onNew) } := by
  obtain ⟨header,seen⟩ := sourced.pending data ts onNew (.inl at_)
  refine ⟨sourced.ts,?_,by simp,?_⟩
  · intro written there ts' dated
    cases how with
    | noDirectory => exact sourced.file written there ts' dated
    | notOpened => exact sourced.file written there ts' dated
    | cut raw =>
      cases there
      cases dated
    | whole =>
      cases there
      cases header.symm.trans dated
      exact seen
  grind [Control.Pending]

theorem refreshRuns_sourced (sourced : Sourced past c) :
    Sourced (past ++ [(refreshRuns how c).2]) (refreshRuns how c).1 := by
  unfold refreshRuns
  split
  · exact sourced.later _
  · next at_ => exact compare_sourced sourced at_
  · next at_ => exact (persist_sourced how sourced at_).later _
  · next data ts onNew at_ =>
    obtain ⟨-,file,-,ts_⟩ := told_kept c onNew data ts
    refine Sourced.later ⟨?_,?_,by simp,by simp [Control.Pending]⟩ _
    · rw [ts_]
      exact sourced.ts
    · rw [file]
      exact sourced.file

theorem step_sourced : Kept step Sourced := by
  intro past c i sourced
  cases i with
  | main readFails => exact (mainRuns_sourced readFails sourced).later _
  | fetched answer =>
    simp only [step]
    split
    · have begun : Sourced past { c with refreshing := answer.manifest.map (fun m => .compares m.1 m.2) } := by
        refine ⟨sourced.ts,sourced.file,?_,by simp [Control.Pending]⟩
        grind [Option.map_eq_some_iff,manifest_header]
      exact begun.later _
    · exact sourced.later _
  | runs how => exact refreshRuns_sourced how sourced
  | restart =>
    have again : Sourced past (start c.cacheFile) :=
      ⟨.inl rfl,sourced.file,by simp [start],by simp [start,Control.Pending]⟩
    exact again.later _

theorem received_of {i : Input} {e : Received} (shown : (step c i).2 = some e) :
    c.refreshing = some (.compares e.data e.ts) ∧ e.current = (compare c e.data e.ts).raw := by
  cases i with
  | main readFails => cases shown
  | fetched answer =>
    simp only [step] at shown
    split at shown <;> cases shown
  | runs how =>
    grind [step,refreshRuns]
  | restart => cases shown

structure Ordered (past : List (Option Received)) (c : Control) : Prop where
  file : c.main = .loads → c.cacheFile = none
  early : c.main = .loads ∨ c.main = .starts → c.refreshing = none
  header : ∀ data ts, c.refreshing = some (.compares data ts) → headerTS data = some ts
  headers : ∀ e, some e ∈ past → headerTS e.data = some e.ts
  below : ∀ e, some e ∈ past → e.ts ≤ c.ts
  raw : ∀ data ∈ c.raw, ∃ e, some e ∈ past ∧ e.data = data

variable (ordered : Ordered past c)
include ordered

theorem Ordered.same {c' : Control} (file : c'.main = .loads → c'.cacheFile = none)
    (early : c'.main = .loads ∨ c'.main = .starts → c'.refreshing = none)
    (header : ∀ data ts, c'.refreshing = some (.compares data ts) → headerTS data = some ts)
    (raw : c'.raw = c.raw) (ts : c'.ts = c.ts) : Ordered (past ++ [none]) c' := by
  have mem_iff : ∀ e, some e ∈ past ++ [none] ↔ some e ∈ past := by simp
  refine ⟨file,early,header,?_,?_,?_⟩
  · simpa only [mem_iff] using ordered.headers
  · simpa only [mem_iff,ts] using ordered.below
  · simpa only [mem_iff,raw] using ordered.raw

/-- A step that shows what was received: the manifest is the old or the received one, and its time
    the later of both. -/
theorem Ordered.receives {c' : Control} {e : Received} (file : c'.main = .loads → c'.cacheFile = none)
    (early : c'.main = .loads ∨ c'.main = .starts → c'.refreshing = none)
    (header : ∀ data ts, c'.refreshing = some (.compares data ts) → headerTS data = some ts) (own : headerTS e.data = some e.ts)
    (raw : c'.raw = c.raw ∨ c'.raw = some e.data) (older : c.ts ≤ c'.ts) (atMost : e.ts ≤ c'.ts) : Ordered (past ++ [some e]) c' := by
  have mem_iff : ∀ e', some e' ∈ past ++ [some e] ↔ some e' ∈ past ∨ e' = e := by simp
  refine ⟨file,early,header,?_,?_,?_⟩
  · grind [ordered.headers]
  · intro e' member
    rcases (mem_iff e').mp member with before | rfl
    · exact Int64.le_trans (ordered.below e' before) older
    · exact atMost
  · grind [ordered.raw]

theorem compare_ordered (at_ : c.refreshing = some (.compares data ts)) :
    Ordered (past ++ [some ⟨data,ts,(compare c data ts).raw⟩]) (compare c data ts) := by
  grind [ordered.early,ordered.header,compare,ordered.receives]

theorem refreshRuns_ordered :
    Ordered (past ++ [(refreshRuns how c).2]) (refreshRuns how c).1 := by
  unfold refreshRuns
  split
  · exact ordered.same ordered.file ordered.early ordered.header rfl rfl
  · next at_ => exact compare_ordered ordered at_
  · grind [ordered.early,ordered.same]
  · next data ts onNew at_ =>
    obtain ⟨main,file,raw,ts_⟩ := told_kept c onNew data ts
    grind [ordered.same,ordered.file]

omit ordered

theorem step_ordered {i : Input} (running : i ≠ .restart) (ordered : Ordered past c) :
    Ordered (past ++ [(step c i).2]) (step c i).1 := by
  cases i with
  | main readFails =>
    simp only [step,mainRuns]
    split
    · next loads =>
      have none_ : loadCached readFails c = c := by simp [loadCached,ordered.file loads]
      rw [none_]
      exact ordered.same (by simp) (fun _ => ordered.early (.inl loads)) ordered.header rfl rfl
    · exact ordered.same (by simp) (by simp) ordered.header rfl rfl
    · exact ordered.same (by simp) (by simp) ordered.header rfl rfl
    · exact ordered.same ordered.file ordered.early ordered.header rfl rfl
  | fetched answer =>
    grind [step,Control.canRefresh,ordered.same,ordered.file,Option.map_eq_some_iff,manifest_header,ordered.early,ordered.header]
  | runs how => exact refreshRuns_ordered how ordered
  | restart => exact absurd rfl running

end

theorem start_sourced : Sourced [] (start none) := ⟨.inl rfl,by simp [start],by simp [start],by simp [start,Control.Pending]⟩

theorem start_ordered : Ordered [] (start none) :=
  ⟨fun _ => rfl,fun _ => rfl,by simp [start],by simp,by simp,by simp [start]⟩

section
variable {S : Signatures Json} {priv : S.Secret} {inputs : List Input}

theorem progress_of_dated (dated : Dated S priv (trace step (start none) inputs)) :
    Progress S priv (trace step (start none) inputs) := by
  intro before e after shown record
  have older := dated before e after shown record
  obtain ⟨first,i,rest,rfl,rfl,eq⟩ := trace_split shown
  have sourced :=
    invariant_run step_sourced first [] (start none) start_sourced
  obtain ⟨at_,current⟩ := received_of eq.symm
  have less : (final step (start none) first).ts < e.ts := by
    rcases sourced.ts with zero | ⟨e',seen,same⟩
    · rw [zero]
      exact record.1.ts_pos (sourced.compares _ _ at_)
    · rw [← same]
      exact older e' seen
  rw [current,compare,if_neg (Int64.not_le.mpr less)]

theorem dated_of_progress (running : .restart ∉ inputs) (progress : Progress S priv (trace step (start none) inputs)) :
    Dated S priv (trace step (start none) inputs) := by
  intro before e after shown record e' seen
  have taken := progress before e after shown record
  obtain ⟨first,i,rest,rfl,rfl,eq⟩ := trace_split shown
  have ordered : Ordered (trace step (start none) first) (final step (start none) first) := by
    have along : Along step (fun _ i => i ≠ .restart) (start none) first := by
      grind [along_of_forall]
    exact invariant_along (fun _ _ _ => step_ordered) first [] (start none) along start_ordered
  obtain ⟨at_,current⟩ := received_of eq.symm
  by_contra late
  have below := ordered.below e' seen
  have kept : compare (final step (start none) first) e.data e.ts = _ := if_pos (Int64.le_trans (Int64.not_lt.mp late) below)
  -- Then the registry has the manifest already, which was received before and is genuine.
  rw [current,kept] at taken
  obtain ⟨e'',before,same⟩ := ordered.raw e.data taken
  have newer := record.2 e'' before (same ▸ record.1)
  have header := ordered.headers e'' before
  rw [same,ordered.header _ _ at_,Option.some.injEq] at header
  rw [header] at newer
  exact Int64.lt_irrefl newer

end

theorem genuine_progress (S : Signatures Json) (priv : S.Secret) (inputs : List Input) :
    (Dated S priv (trace step (start none) inputs) → Progress S priv (trace step (start none) inputs)) ∧
      (.restart ∉ inputs → Progress S priv (trace step (start none) inputs) → Dated S priv (trace step (start none) inputs)) :=
  ⟨progress_of_dated,dated_of_progress⟩

theorem sample_forged (priv : S.Secret) (ts : Rat) : ¬ Genuine S priv (sampleManifest ts) := by
  rintro ⟨now,files,-,eq⟩
  simp [sampleManifest,signContentManifest,Json.marshal,Json.members,SignedContentManifest.fields,SignedContentManifest.payload,
    Field.always] at eq

def farFuture : Int64 := 4611686018427387904

def deceived : List Input := sampleBoot ++ sampleRefresh (sampleManifest 4611686018427387904)

theorem deceived_final : final step (start none) deceived =
    ⟨some (sampleManifest 4611686018427387904),.serves,some (sampleManifest 4611686018427387904),farFuture,some (.refreshed true),none,
      some (sampleManifest 4611686018427387904),farFuture⟩ := by
  rfl

theorem deceived_trace : trace step (start none) deceived =
    [none,none,none,none,some ⟨sampleManifest 4611686018427387904,farFuture,some (sampleManifest 4611686018427387904)⟩,none,none] := by
  rfl

/-- The manifest that the arbiter signs next is not taken. -/
theorem forged_keeps_out :
    ¬ ∀ (S : Signatures Json) (priv : S.Secret) (inputs : List Input), Progress S priv (trace step (start none) inputs) := by
  intro always
  let S := Signatures.symbolic Json
  let data : Body := .document (signContentManifest S (0 : Nat) 100 [])
  have signed : headerTS data = some 100 := headerTS_signed S (0 : Nat) 100 []
  have taken : (Answer.status 200 (some data)).manifest = some (data,100) := by
    simp only [Answer.manifest,signed]
    rfl
  have shown : trace step (start none) (deceived ++ [.fetched (.status 200 (some data)),.runs .whole]) =
      (trace step (start none) deceived ++ [none]) ++ some ⟨data,100,some (sampleManifest 4611686018427387904)⟩ :: [] := by
    have older : (100 : Int64) ≤ farFuture := by decide
    rw [trace_append,deceived_final,List.append_assoc]
    simp [trace,step,taken,Control.canRefresh,refreshRuns,compare,older]
  have current := always S (0 : Nat) _ _ _ _ shown ⟨⟨100,[],by decide,rfl⟩,?_⟩
  · exact sample_forged S (0 : Nat) 4611686018427387904 ⟨100,[],by decide,Option.some.inj current⟩
  · intro e' before genuine
    rw [deceived_trace] at before
    obtain rfl : e' = ⟨sampleManifest 4611686018427387904,farFuture,some (sampleManifest 4611686018427387904)⟩ := by simpa using before
    exact absurd genuine (sample_forged S (0 : Nat) 4611686018427387904)

end TunnelCat.ContentRegistry
