import Mathlib.Data.List.Sort
import TunnelCat.Traffic

/-!
The archive of old traffic samples (`snc-arbiter/stats_archive.go`). A pass appends the samples of a node to
one compressed file a month and deletes them when all files have been written. A file that cannot be read
counts as empty, and months that were written before one that fails are written again.
-/
namespace TunnelCat.Archive
open Runs Traffic List

structure StatSample where
  ts : Int
  bytesTotal : Int64
  bytesCum : Int64
  bwMbps : Rat
  rttMs : Rat
  routingRTTms : Rat
  cpuPct : Rat
  memPct : Rat
  diskPct : Rat
deriving DecidableEq

def statOf (s : Sample) : StatSample :=
  ⟨s.ts,s.bytesTotal,s.bytesCum,s.bwMbps,s.rttMs,s.routingRTTms,s.cpuPct,s.memPct,s.diskPct⟩

structure Month where
  year : Int
  month : Int
deriving DecidableEq

def monthOf (ts : Int) : Month :=
  let days := ts / 86400 + 719468
  let era := days / 146097
  let dayOfEra := days % 146097
  let yearOfEra := (dayOfEra - dayOfEra / 1460 + dayOfEra / 36524 - dayOfEra / 146096) / 365
  let dayOfYear := dayOfEra - (365 * yearOfEra + yearOfEra / 4 - yearOfEra / 100)
  let fromMarch := (5 * dayOfYear + 2) / 153
  if fromMarch < 10 then ⟨era * 400 + yearOfEra,fromMarch + 3⟩ else ⟨era * 400 + yearOfEra + 1,fromMarch - 9⟩

example : [0,951782400,951868800,1767225599,-1].map monthOf = [⟨1970,1⟩,⟨2000,2⟩,⟨2000,3⟩,⟨2025,12⟩,⟨1969,12⟩] := by decide

def linesFrom (line : List UInt8) : List UInt8 → List (List UInt8)
  | [] => []
  | b :: rest => if b = 10 then line :: linesFrom [] rest else linesFrom (line ++ [b]) rest

def lines (text : List UInt8) : List (List UInt8) := linesFrom [] text

theorem linesFrom_line {text : List UInt8} (plain : 10 ∉ text) (line rest : List UInt8) :
    linesFrom line (text ++ 10 :: rest) = (line ++ text) :: linesFrom [] rest := by
  induction text generalizing line with
  | nil => simp [linesFrom]
  | cons b text ih =>
    grind [linesFrom]

/-- How samples are written and files compressed. What `gunzip` gives of a file that is damaged is
    what comes out before the error. -/
structure World where
  marshal : StatSample → Option (List UInt8)
  marshal_line : ∀ s text, marshal s = some text → 10 ∉ text
  marshal_injective : ∀ s s' text, marshal s = some text → marshal s' = some text → s = s'
  gzip : List UInt8 → List UInt8
  gunzip : List UInt8 → List UInt8
  gunzip_gzip : ∀ body, gunzip (gzip body) = body

variable (w : World)

variable (db : DB) (samples : List StatSample) (nodeID : Int)

def jsonl : List UInt8 :=
  samples.flatMap (fun s => match w.marshal s with
    | none => []
    | some line => line ++ [10])

abbrev Place := Int × Month

inductive Written
  | whole
  | notOpened
  | cut (bytes : Nat)
deriving DecidableEq

structure FileCalls where
  readFails : Bool
  unzipped : Option Nat
  written : Written

/-- The time of a pass, what its calls leave open and how they go. -/
structure Around where
  now : Int
  listFails : Bool
  nodeOrder : List Int → List Int
  nodeOrder_perm : ∀ nodes, (nodeOrder nodes).Perm nodes
  selectFails : Int → Bool
  byTs : List Sample → List Sample
  byTs_perm : ∀ rows, (byTs rows).Perm rows
  byTs_sorted : ∀ rows, (byTs rows).Pairwise (fun s s' => s.ts ≤ s'.ts)
  mkdirFails : Int → Bool
  months : Table.Range Month (List StatSample)
  file : Place → FileCalls
  deleteFails : Int → Bool

def statsRetention : Int := 30 * 24 * 60 * 60

variable (a : Around) (c : FileCalls) (files : Table Place (List UInt8)) (place : Place)

def Around.cutoff : Int := a.now - statsRetention

/-- The database and the archive. The code does not keep the samples that were deleted. -/
structure Arbiter where
  db : DB
  files : Table Place (List UInt8)
  deleted : List (Int × StatSample)

def existing (content : Option (List UInt8)) : List UInt8 :=
  match if c.readFails then none else content with
  | none => []
  | some data =>
    match c.unzipped with
    | none => w.gunzip data
    | some bytes => (w.gunzip data).take bytes

def writeFile (how : Written) (files : Table Place (List UInt8)) (place : Place) (content : List UInt8) :
    Table Place (List UInt8) × Bool :=
  match how with
  | .whole => (files.insert place content,true)
  | .notOpened => (files,false)
  | .cut bytes => (files.insert place (content.take bytes),false)

def appendGzipJSONL (samples : List StatSample) :
    Table Place (List UInt8) × Bool :=
  writeFile c.written files place (w.gzip (existing w c (files.lookup place) ++ jsonl w samples))

def byMonth : Table Month (List StatSample) :=
  samples.foldl (fun t s => t.insert (monthOf s.ts) ((t.lookup (monthOf s.ts)).getD [] ++ [s])) ∅

def appendMonths (a : Around) (nodeID : Int) (files : Table Place (List UInt8)) :
    List (Sigma fun _ : Month => List StatSample) → Table Place (List UInt8) × Bool
  | [] => (files,true)
  | group :: rest =>
    match appendGzipJSONL w (a.file (nodeID,group.1)) files (nodeID,group.1) group.2 with
    | (files, false) => (files,false)
    | (files, true) => appendMonths a nodeID files rest

def appendStatsArchive (nodeID : Int) (samples : List StatSample) :
    Table Place (List UInt8) × Bool :=
  if a.mkdirFails nodeID then (files,false) else appendMonths w a nodeID files (a.months.entries (byMonth samples))

def isOld (cutoff : Int) (s : Sample) : Bool := s.nodeID = nodeID && s.ts < cutoff

variable (s : Arbiter)

def nodeStatsOlderThan (nodeID : Int) : List StatSample :=
  (a.byTs (s.db.traffic.filter (isOld nodeID a.cutoff))).map statOf

def deleteNodeStatsOlderThan (cutoff : Int) : DB :=
  { db with traffic := db.traffic.filter (fun s => !isOld nodeID cutoff s) }

def archiveNode (nodeID : Int) : Arbiter :=
  if a.selectFails nodeID then s
  else
    let samples := nodeStatsOlderThan a s nodeID
    if samples = [] then s
    else
      match appendStatsArchive w a s.files nodeID samples with
      | (files, false) => { s with files := files }
      | (files, true) =>
        if a.deleteFails nodeID then { s with files := files }
        else ⟨deleteNodeStatsOlderThan s.db nodeID a.cutoff,files,s.deleted ++ samples.map (fun x => (nodeID,x))⟩

def nodeIDsWithStatsOlderThan (cutoff : Int) : List Int :=
  ((db.traffic.filter (fun s => s.ts < cutoff)).map Sample.nodeID).dedup

def passNodes : List Int :=
  if a.listFails then [] else a.nodeOrder (nodeIDsWithStatsOlderThan s.db a.cutoff)

def turn (nodeID : Int) : Arbiter × Unit := (archiveNode w a s nodeID,())

def archiveOldNodeStats : Arbiter := final (turn w a) s (passNodes a s)

inductive Input
  | pass (a : Around)
  | record (call : Call)

def step : Input → Arbiter × Unit
  | .pass a => (archiveOldNodeStats w a s,())
  | .record call => ({ s with db := (Traffic.step s.db call).1 },())

def start : Arbiter := ⟨db,∅,[]⟩

def body : List UInt8 := ((files.lookup place).map w.gunzip).getD []

def linesAt (place : Place) : List (List UInt8) := lines (body w s.files place)

/-- Every sample that was deleted has its line in the file of its month as often as it was deleted,
    and in no other file of its node. -/
def Lossless : Prop :=
  ∀ d ∈ s.deleted, ∃ line, w.marshal d.2 = some line ∧
    ∀ month, (linesAt w s (d.1,month)).count line = if month = monthOf d.2.ts then s.deleted.count d else 0

def FileCalls.Succeed (content : Option (List UInt8)) : Prop :=
  (content ≠ none → c.readFails = false ∧ c.unzipped = none) ∧ c.written = .whole

def Untouched (nodeID : Int) (samples : List StatSample) : Prop :=
  a.mkdirFails nodeID = true ∨
    ∃ group ∈ (a.months.entries (byMonth samples)).head?, (a.file (nodeID,group.1)).written = .notOpened

structure Complete (a : Around) (s : Arbiter) (nodeID : Int) (samples : List StatSample) : Prop where
  mkdir : a.mkdirFails nodeID = false
  marshals : ∀ x ∈ samples, w.marshal x ≠ none
  files : ∀ x ∈ samples, (a.file (nodeID,monthOf x.ts)).Succeed (s.files.lookup (nodeID,monthOf x.ts))
  deletes : a.deleteFails nodeID = false

def CleanTurn (nodeID : Int) : Prop :=
  a.selectFails nodeID = true ∨ Untouched a nodeID (nodeStatsOlderThan a s nodeID) ∨
    Complete w a s nodeID (nodeStatsOlderThan a s nodeID)

def Clean : Input → Prop
  | .pass a => Along (turn w a) (CleanTurn w a) s (passNodes a s)
  | .record _ => True

theorem jsonl_append (more : List StatSample) : jsonl w (samples ++ more) = jsonl w samples ++ jsonl w more :=
  flatMap_append

theorem lines_jsonl : lines (jsonl w samples) = samples.filterMap w.marshal := by
  induction samples with
  | nil => rfl
  | cons x rest ih =>
    cases written : w.marshal x with
    | none => simpa [jsonl,written] using ih
    | some line =>
      have first : jsonl w (x :: rest) = line ++ 10 :: jsonl w rest := by simp [jsonl,written]
      grind [lines,linesFrom_line,w.marshal_line]

theorem body_insert (place' : Place) (content : List UInt8) :
    body w (files.insert place content) place' = if place' = place then w.gunzip content else body w files place' := by
  unfold body
  rw [Table.lookup_insert_of]
  split <;> rfl

theorem appendGzipJSONL_succeeds {c : FileCalls} {files : Table Place (List UInt8)} {place : Place}
    (succeed : c.Succeed (files.lookup place)) (samples : List StatSample) :
    ∃ files', appendGzipJSONL w c files place samples = (files',true) ∧
      (∀ place', body w files' place' = if place' = place then body w files place ++ jsonl w samples else body w files place') ∧
      ∀ place', place' ≠ place → files'.lookup place' = files.lookup place' := by
  obtain ⟨read,whole⟩ := succeed
  have before : existing w c (files.lookup place) = body w files place := by
    grind [existing,body]
  refine ⟨_,by rw [appendGzipJSONL,whole,writeFile],?_,?_⟩
  · intro place'
    rw [body_insert,before,w.gunzip_gzip]
  · intro place' other
    exact AList.lookup_insert_ne other

theorem byMonth_from (m : Month) : ∀ t : Table Month (List StatSample),
    ((samples.foldl (fun t s => t.insert (monthOf s.ts) ((t.lookup (monthOf s.ts)).getD [] ++ [s])) t).lookup m).getD [] =
        (t.lookup m).getD [] ++ samples.filter (fun s => monthOf s.ts = m) ∧
      ((samples.foldl (fun t s => t.insert (monthOf s.ts) ((t.lookup (monthOf s.ts)).getD [] ++ [s])) t).lookup m ≠ none →
        t.lookup m ≠ none ∨ ∃ s ∈ samples, monthOf s.ts = m) := by
  induction samples with
  | nil => simp
  | cons x rest ih =>
    intro t
    obtain ⟨group,known⟩ := ih (t.insert (monthOf x.ts) ((t.lookup (monthOf x.ts)).getD [] ++ [x]))
    rw [foldl_cons,group,Table.lookup_insert_of]
    by_cases own : monthOf x.ts = m
    · grind [mem_cons_self]
    · rw [if_neg (Ne.symm own),filter_cons_of_neg (by simpa using own)]
      refine ⟨rfl,?_⟩
      intro there
      rcases known there with old | ⟨s,member,month⟩
      · exact .inl (by rwa [AList.lookup_insert_ne (Ne.symm own)] at old)
      · exact .inr ⟨s,mem_cons_of_mem _ member,month⟩

theorem byMonth_group (m : Month) :
    ((byMonth samples).lookup m).getD [] = samples.filter (fun s => monthOf s.ts = m) := by
  exact (byMonth_from samples m ∅).1

variable {samples}

theorem byMonth_known {m : Month} (there : (byMonth samples).lookup m ≠ none) :
    ∃ s ∈ samples, monthOf s.ts = m := by
  rcases (byMonth_from samples m ∅).2 there with none | known
  · exact absurd (AList.lookup_empty m) none
  · exact known

variable {a} {nodeID} {l' : List UInt8}

/-- Where the calls on every file succeed, each month is added to the end of its file. The
    induction is on the months, whose files are apart. -/
theorem appendMonths_succeeds (groups : List (Sigma fun _ : Month => List StatSample)) :
    ∀ files : Table Place (List UInt8), (groups.map Sigma.fst).Nodup →
      (∀ g ∈ groups, (a.file (nodeID,g.1)).Succeed (files.lookup (nodeID,g.1))) →
      ∃ files', appendMonths w a nodeID files groups = (files',true) ∧
        ∀ place, body w files' place =
          body w files place ++ if place.1 = nodeID then jsonl w ((groups.dlookup place.2).getD []) else [] := by
  induction groups with
  | nil => intro files _ _; exact ⟨files,rfl,fun place => by simp [jsonl]⟩
  | cons group rest ih =>
    intro files apart succeed
    obtain ⟨fresh,later⟩ := nodup_cons.mp apart
    obtain ⟨next,written,bodies,others⟩ := appendGzipJSONL_succeeds w (succeed group mem_cons_self) group.2
    have still : ∀ g ∈ rest, (a.file (nodeID,g.1)).Succeed (next.lookup (nodeID,g.1)) := by
      intro g member
      have other : g.1 ≠ group.1 := fun same => fresh (same ▸ mem_map_of_mem member)
      rw [others (nodeID,g.1) (by simp [other])]
      exact succeed g (mem_cons_of_mem _ member)
    obtain ⟨files',done,all⟩ := ih next later still
    refine ⟨files',by rw [appendMonths,written]; exact done,?_⟩
    rintro ⟨node,month⟩
    rw [all,bodies]
    by_cases own : node = nodeID
    · subst own
      obtain ⟨m,samples⟩ := group
      by_cases same : month = m
      · subst same
        have absent : rest.dlookup month = none := dlookup_eq_none.mpr fresh
        simp [absent,jsonl]
      · simp [same]
    · simp [own]

def deletedAt (place : Place) : List StatSample :=
  (s.deleted.filter (fun d => d.1 = place.1 && monthOf d.2.ts = place.2)).map Prod.snd

structure Kept (s : Arbiter) : Prop where
  bodies : ∀ place, body w s.files place = jsonl w (deletedAt s place)
  marshals : ∀ d ∈ s.deleted, w.marshal d.2 ≠ none

theorem deletedAt_append (db : DB) (files : Table Place (List UInt8)) (nodeID : Int) (samples : List StatSample)
    (place : Place) :
    deletedAt ⟨db,files,s.deleted ++ samples.map (fun x => (nodeID,x))⟩ place =
      deletedAt s place ++ if place.1 = nodeID then samples.filter (fun x => monthOf x.ts = place.2) else [] := by
  simp only [deletedAt,filter_append,filter_map]
  by_cases own : place.1 = nodeID
  · simp [own,Function.comp_def]
  · simp [own,Ne.symm own]

theorem appendStatsArchive_untouched (untouched : Untouched a nodeID samples)
    (files : Table Place (List UInt8)) : appendStatsArchive w a files nodeID samples = (files,false) := by
  unfold appendStatsArchive
  rcases untouched with fails | ⟨group,first,closed⟩
  · rw [if_pos fails]
  · split
    · rfl
    · cases groups : a.months.entries (byMonth samples) with
      | nil => simp [groups] at first
      | cons g rest =>
        grind [appendMonths,appendGzipJSONL,writeFile]

variable {s}

theorem appendStatsArchive_complete
    (complete : Complete w a s nodeID samples) :
    ∃ files, appendStatsArchive w a s.files nodeID samples = (files,true) ∧
      ∀ place, body w files place = body w s.files place ++
        if place.1 = nodeID then jsonl w (samples.filter (fun x => monthOf x.ts = place.2)) else [] := by
  have succeed : ∀ g ∈ a.months.entries (byMonth samples), (a.file (nodeID,g.1)).Succeed (s.files.lookup (nodeID,g.1)) := by
    intro g member
    have there :=
      AList.mem_lookup_iff.mpr ((a.months.entries_perm _).mem_iff.mp member)
    obtain ⟨x,sample,month⟩ := byMonth_known (by rw [there]; simp)
    rw [← month]
    exact complete.files x sample
  obtain ⟨files,written,bodies⟩ := appendMonths_succeeds w _ s.files (a.months.nodup_keys _) succeed
  refine ⟨files,by rw [appendStatsArchive,complete.mkdir,if_neg Bool.false_ne_true,written],?_⟩
  intro place
  have same : (a.months.entries (byMonth samples)).dlookup place.2 = (byMonth samples).lookup place.2 :=
    perm_dlookup place.2 (a.months.nodup_keys _) (a.months.entries_perm _)
  rw [bodies,same,byMonth_group]

theorem turn_kept (clean : CleanTurn w a s nodeID) (kept : Kept w s) :
    Kept w (turn w a s nodeID).1 := by
  unfold turn archiveNode
  dsimp only
  by_cases select : a.selectFails nodeID = true
  · rwa [if_pos select]
  rw [if_neg select]
  split
  · exact kept
  rcases clean with fails | untouched | complete
  · exact absurd fails select
  · rwa [appendStatsArchive_untouched w untouched]
  · obtain ⟨files,written,bodies⟩ := appendStatsArchive_complete w complete
    simp only [written,complete.deletes,Bool.false_eq_true,if_false]
    constructor
    · grind [deletedAt_append,jsonl_append,kept.bodies]
    · intro d member
      grind [kept.marshals,complete.marshals]

theorem turn_deleted (a : Around) (s : Arbiter) (nodeID : Int) : s.deleted <+: (turn w a s nodeID).1.deleted := by
  grind [turn,archiveNode]

theorem step_kept {i : Input} (clean : Clean w s i) (kept : Kept w s) : Kept w (step w s i).1 := by
  cases i with
  | pass a => exact state_along (fun _ _ meets holds => turn_kept w meets holds) clean kept
  | record call => exact ⟨kept.bodies,kept.marshals⟩

theorem step_deleted (s : Arbiter) (i : Input) : s.deleted <+: (step w s i).1.deleted := by
  cases i with
  | pass a =>
    exact state_run (P := fun s' => s.deleted <+: s'.deleted)
      (fun s' nodeID before => before.trans (turn_deleted w a s' nodeID)) (passNodes a s) (prefix_refl _)
  | record call => exact prefix_refl _

theorem run_deleted (inputs : List Input) (s : Arbiter) : s.deleted <+: (final (step w) s inputs).deleted :=
  state_run (P := fun s' => s.deleted <+: s'.deleted) (fun s' i before => before.trans (step_deleted w s' i)) inputs
    (prefix_refl _)

theorem linesAt_kept (kept : Kept w s) (place : Place) :
    linesAt w s place = (deletedAt s place).filterMap w.marshal := by
  rw [linesAt,kept.bodies,lines_jsonl]

theorem count_line {x : StatSample} {line : List UInt8} (written : w.marshal x = some line) (samples : List StatSample) :
    (samples.filterMap w.marshal).count line = samples.count x := by
  induction samples with
  | nil => rfl
  | cons y rest ih =>
    grind [w.marshal_injective]

theorem count_deletedAt (s : Arbiter) (d : Int × StatSample) (month : Month) :
    (deletedAt s (d.1,month)).count d.2 = if month = monthOf d.2.ts then s.deleted.count d else 0 := by
  unfold deletedAt
  induction s.deleted with
  | nil => simp
  | cons e rest ih =>
    grind

theorem kept_lossless (kept : Kept w s) : Lossless w s := by
  intro d member
  obtain ⟨line,written⟩ := Option.ne_none_iff_exists'.mp (kept.marshals d member)
  grind [linesAt_kept,count_line,count_deletedAt]

/-- In every run in which each node of each pass is left alone or archived without a failure, every
    deleted sample is in the archive once, and the lines of every file stay, with what comes later
    behind them. -/
theorem archive_lossless (db : DB) (inputs : List Input) (clean : Along (step w) (Clean w) (start db) inputs) :
    Lossless w (final (step w) (start db) inputs) ∧
      ∀ first rest, inputs = first ++ rest → ∀ place,
        linesAt w (final (step w) (start db) first) place <+: linesAt w (final (step w) (start db) inputs) place := by
  have empty : Kept w (start db) := ⟨fun _ => rfl,fun d none => by cases none⟩
  have kept := state_along (fun _ _ meets holds => step_kept w meets holds) clean empty
  refine ⟨kept_lossless w kept,?_⟩
  rintro first rest rfl place
  have before : Kept w (final (step w) (start db) first) := by
    cases rest with
    | nil => simpa using kept
    | cons i later => exact state_along (fun _ _ meets holds => step_kept w meets holds) (along_split first clean).1 empty
  rw [linesAt_kept w kept,linesAt_kept w before,final_append]
  exact (((run_deleted w rest _).filter _).map _).filterMap _

def unary (n : Int) : List UInt8 := (if n < 0 then 1 else 0) :: (List.replicate n.natAbs 2 ++ [3])

theorem replicate_mark {k k' : Nat} {l : List UInt8}
    (same : replicate k 2 ++ 3 :: l = replicate k' 2 ++ 3 :: l') : k = k' ∧ l = l' := by
  induction k generalizing k' with
  | zero =>
    cases k' with
    | zero => exact ⟨rfl,(List.cons.inj same).2⟩
    | succ k' => cases (List.cons.inj same).1
  | succ k ih =>
    cases k' with
    | zero => cases (List.cons.inj same).1
    | succ k' =>
      grind

theorem unary_append {n n' : Int} {l : List UInt8} (same : unary n ++ l = unary n' ++ l') : n = n' ∧ l = l' := by
  grind [unary,replicate_mark]

theorem unaries_injective : ∀ {ns ns' : List Int}, ns.flatMap unary = ns'.flatMap unary → ns = ns'
  | [], [], _ => rfl
  | [], _ :: _, same => by simp [unary] at same
  | _ :: _, [], same => by simp [unary] at same
  | n :: ns, n' :: ns', same => by
    obtain ⟨first,rest⟩ := unary_append same
    rw [first,unaries_injective rest]

theorem unary_plain (n : Int) : 10 ∉ unary n := by
  simp only [unary]
  split <;> simp

def numbers (s : StatSample) : List Int :=
  [s.ts,s.bytesTotal.toInt,s.bytesCum.toInt] ++
    [s.bwMbps,s.rttMs,s.routingRTTms,s.cpuPct,s.memPct,s.diskPct].flatMap (fun q => [q.num,(q.den : Int)])

theorem numbers_injective {s s' : StatSample} (same : numbers s = numbers s') : s = s' := by
  cases s
  cases s'
  simp only [numbers,flatMap_cons,cons_append,nil_append,List.cons.injEq,Nat.cast_inj] at same
  obtain ⟨ts,total,cum,n₁,d₁,n₂,d₂,n₃,d₃,n₄,d₄,n₅,d₅,n₆,d₆,-⟩ := same
  simp only [StatSample.mk.injEq]
  exact ⟨ts,Int64.toInt_inj.mp total,Int64.toInt_inj.mp cum,Rat.ext n₁ d₁,Rat.ext n₂ d₂,Rat.ext n₃ d₃,Rat.ext n₄ d₄,
    Rat.ext n₅ d₅,Rat.ext n₆ d₆⟩

def World.plain : World where
  marshal s := some ((numbers s).flatMap unary)
  marshal_line s text written := by
    cases written
    intro inside
    obtain ⟨n,-,there⟩ := mem_flatMap.mp inside
    exact unary_plain n there
  marshal_injective s s' text first second := by
    cases first
    exact numbers_injective (unaries_injective (Option.some.inj second)).symm
  gzip body := body
  gunzip body := body
  gunzip_gzip _ := rfl

def Around.quiet (now : Int) : Around where
  now := now
  listFails := false
  nodeOrder nodes := nodes
  nodeOrder_perm nodes := .refl nodes
  selectFails _ := false
  byTs rows := rows.insertionSort (fun s s' => s.ts ≤ s'.ts)
  byTs_perm rows := perm_insertionSort _ rows
  byTs_sorted rows := pairwise_insertionSort (fun s s' : Sample => s.ts ≤ s'.ts) rows
  mkdirFails _ := false
  months := Table.Range.asKept Month (List StatSample)
  file _ := ⟨false,none,.whole⟩
  deleteFails _ := false

instance (c : FileCalls) (content : Option (List UInt8)) : Decidable (c.Succeed content) :=
  inferInstanceAs (Decidable ((content ≠ none → c.readFails = false ∧ c.unzipped = none) ∧ c.written = .whole))

instance (a : Around) (nodeID : Int) (samples : List StatSample) : Decidable (Untouched a nodeID samples) :=
  inferInstanceAs (Decidable (a.mkdirFails nodeID = true ∨
    ∃ group ∈ (a.months.entries (byMonth samples)).head?, (a.file (nodeID,group.1)).written = .notOpened))

instance (a : Around) (s : Arbiter) (nodeID : Int) (samples : List StatSample) : Decidable (Complete w a s nodeID samples) :=
  decidable_of_iff (a.mkdirFails nodeID = false ∧ (∀ x ∈ samples, w.marshal x ≠ none) ∧
      (∀ x ∈ samples, (a.file (nodeID,monthOf x.ts)).Succeed (s.files.lookup (nodeID,monthOf x.ts))) ∧ a.deleteFails nodeID = false)
    ⟨fun ⟨mkdir,marshals,files,deletes⟩ => ⟨mkdir,marshals,files,deletes⟩,fun c => ⟨c.mkdir,c.marshals,c.files,c.deletes⟩⟩

instance (a : Around) (s : Arbiter) (nodeID : Int) : Decidable (CleanTurn w a s nodeID) :=
  inferInstanceAs (Decidable (a.selectFails nodeID = true ∨ Untouched a nodeID (nodeStatsOlderThan a s nodeID) ∨
    Complete w a s nodeID (nodeStatsOlderThan a s nodeID)))

instance : ∀ (s : Arbiter) (i : Input), Decidable (Clean w s i)
  | s, .pass a => inferInstanceAs (Decidable (Along (turn w a) (CleanTurn w a) s (passNodes a s)))
  | _, .record _ => isTrue trivial

def sampleRecord (ts : Int) (raw : Int64) : Input := .record ⟨sampleReport 1 ts raw .exit,false⟩

def twoPasses (second : Around) : List Input :=
  [sampleRecord 1 5,.pass (.quiet (statsRetention + 2)),sampleRecord 2 9,.pass second]

theorem archive_lossless_two_passes :
    Lossless .plain (final (step .plain) (start ⟨∅,[]⟩) (twoPasses (.quiet (statsRetention + 3)))) ∧
      ∀ first rest, twoPasses (.quiet (statsRetention + 3)) = first ++ rest → ∀ place,
        linesAt .plain (final (step .plain) (start ⟨∅,[]⟩) first) place <+:
          linesAt .plain (final (step .plain) (start ⟨∅,[]⟩) (twoPasses (.quiet (statsRetention + 3)))) place :=
  archive_lossless .plain ⟨∅,[]⟩ (twoPasses (.quiet (statsRetention + 3))) (by decide +kernel)

def Around.unreadable (now : Int) : Around := { Around.quiet now with file := fun _ => ⟨true,none,.whole⟩ }

/-- The second pass writes the file anew, without the line of the first sample. -/
theorem archived_line_lost :
    ¬ ∀ (w : World) (db : DB) (inputs : List Input),
      Lossless w (final (step w) (start db) inputs) ∧
        ∀ first rest, inputs = first ++ rest → ∀ place,
          linesAt w (final (step w) (start db) first) place <+: linesAt w (final (step w) (start db) inputs) place := by
  intro always
  have lossless := (always .plain ⟨∅,[]⟩ (twoPasses (.unreadable (statsRetention + 3)))).1
  have deleted : (1,⟨1,5,5,0,0,0,0,0,0⟩) ∈
      (final (step .plain) (start ⟨∅,[]⟩) (twoPasses (.unreadable (statsRetention + 3)))).deleted := by decide +kernel
  obtain ⟨line,written,counts⟩ := lossless _ deleted
  cases written
  exact absurd (counts ⟨1970,1⟩) (by decide +kernel)

end TunnelCat.Archive
