import TunnelCat.Bytes
import TunnelCat.Disk
import TunnelCat.HostPort
import TunnelCat.Manifest
import TunnelCat.Nodes
import TunnelCat.Paths
import TunnelCat.Runs
import TunnelCat.Selection
import TunnelCat.Tiles

/-!
The chunks of the mirrored content. The arbiter (`snc-arbiter/content_manifest.go`) cuts each file into
chunks, lists their hashes and serves each chunk by its hash; a client (`snc/core/mirror.go`) downloads
them in the listed order. A hash that is listed more than once has one place in the index, the last
one, which is enough if no two chunks collide (`content_round_trip`).
-/
namespace TunnelCat.ContentChunks
open Bytes Paths Runs Selection Tiles List
open HostPort (Text)
open Manifest (Refusal)

def contentChunkSize : Nat := 16 * 1024

structure Source where
  path : Text
  bytes : List UInt8
  modTime : Int

structure Dir where
  files : List Source
  apart : (files.map Source.path).Nodup

def Dir.read (dir : Dir) (path : Text) : Option (List UInt8) := (dir.files.find? (fun s => s.path = path)).map Source.bytes

structure ContentFileEntry where
  path : Text
  size : Nat
  chunkSize : Nat
  chunkHashes : List Text

structure ChunkLocation where
  absPath : Text
  offset : Nat
  size : Nat

/-- The directory of a mirror and the functions of the Go library: SHA-256, `strings.ToLower`, which
    keeps hex text, and the sort of the listed files. -/
structure World where
  dataDir : Text
  sha256 : List UInt8 → List UInt8
  toLower : Text → Text
  lower : ∀ bytes, toLower (hexEncode bytes).toList = (hexEncode bytes).toList
  sortFiles : List ContentFileEntry → List ContentFileEntry
  sorts : Sorts (lessBy ContentFileEntry.path) sortFiles

/-- How the calls of a request go: both walks, opening a file and reading from it for the nth
    time, signing, seeking, and how much is copied before the connection breaks. -/
structure Calls where
  lists : Bool
  walks : Bool
  opens : Text → Bool
  reads : Text → Nat → Bool
  signs : Bool
  seeks : Bool
  copied : Option Nat

variable (w : World)

def chunkHash (data : List UInt8) : Text := (hexEncode (w.sha256 data)).toList

abbrev Index := Table Text ChunkLocation

def readChunks (calls : Calls) (path : Text) (reads : Nat) (rest : List UInt8) (hashes : List Text) (index : Index)
    (offset : Nat) : Option (List Text × Index × Nat) :=
  if !calls.reads path reads then none
  else if rest.length = 0 then some (hashes,index,offset)
  else
    let buf := rest.take contentChunkSize
    let h := chunkHash w buf
    let hashes := hashes ++ [h]
    let index := index.insert h ⟨path,offset,buf.length⟩
    let offset := offset + buf.length
    if buf.length < contentChunkSize then some (hashes,index,offset)
    else readChunks calls path (reads + 1) (rest.drop contentChunkSize) hashes index offset
termination_by rest.length
decreasing_by
  rw [length_drop]
  exact Nat.sub_lt (Nat.pos_of_ne_zero (by assumption)) (by decide)

variable (s : Source) (files : List ContentFileEntry)

def listFile (calls : Calls) (s : Source) (files : List ContentFileEntry) (index : Index) :
    Option (List ContentFileEntry × Index) :=
  if !calls.opens s.path then none
  else
    match readChunks w calls s.path 0 s.bytes [] index 0 with
    | none => none
    | some (hashes,index,offset) => some (files ++ [⟨s.path,offset,contentChunkSize,hashes⟩],index)

def walk (calls : Calls) : List Source → List ContentFileEntry → Index → Option (List ContentFileEntry × Index)
  | [], files, index => some (files,index)
  | s :: rest, files, index =>
    match listFile w calls s files index with
    | none => none
    | some (files,index) => walk calls rest files index

def buildContentFileList (calls : Calls) (dir : Dir) : Option (List ContentFileEntry × Index) :=
  if !calls.walks then none
  else
    match walk w calls dir.files [] ∅ with
    | none => none
    | some (files,index) => some (w.sortFiles files,index)

def fingerprintLine : Text :=
  s.path ++ ':' :: (toString s.bytes.length).toList ++ ':' :: (toString s.modTime).toList

def dirFingerprint (calls : Calls) (dir : Dir) : Option Text :=
  if !calls.lists then none else some (['\n'].intercalate (insertSort id (dir.files.map fingerprintLine)))

/-- `contentManifestCache`, after the first build. Of the signed manifest only the list is kept. -/
structure Cache where
  files : List ContentFileEntry
  dirState : Text
  chunkIndex : Index

def rebuild (calls : Calls) (dir : Dir) (state : Text) : Option Cache :=
  match buildContentFileList w calls dir with
  | none => none
  | some (files,index) => if !calls.signs then none else some ⟨files,state,index⟩

def ensureFresh (calls : Calls) (dir : Dir) (cache : Option Cache) : Option Cache :=
  match dirFingerprint calls dir with
  | none => none
  | some state =>
    match cache with
    | some c => if c.dirState = state then some c else rebuild w calls dir state
    | none => rebuild w calls dir state

structure Request where
  env : Nodes.Env
  db : Nodes.DB
  token : String
  calls : Calls

def authRelayNode (r : Request) : Except Refusal Nodes.Node :=
  if r.token = "" then .error ⟨401,"X-Node-Token required"⟩
  else
    match Nodes.nodeByToken r.env r.db r.token with
    | some (some node) => if node.type ≠ .control ∧ node.type ≠ .exit then .error ⟨401,"unauthorized"⟩ else .ok node
    | _ => .error ⟨401,"unauthorized"⟩

structure Site where
  contentDir : Text
  dir : Dir

variable (site : Site)

def freshCache (cache : Option Cache) (r : Request) : Except Refusal Cache :=
  match authRelayNode r with
  | .error e => .error e
  | .ok _ =>
    if site.contentDir = [] then .error ⟨404,"content mirroring disabled"⟩
    else
      match ensureFresh w r.calls site.dir cache with
      | none => .error ⟨500,"internal error"⟩
      | some c => .ok c

def chunkAt (calls : Calls) (index : Index) (hash : Text) : Except Refusal (List UInt8) :=
  match index.lookup (w.toLower hash) with
  | none => .error ⟨404,"chunk not found"⟩
  | some loc =>
    match if calls.opens loc.absPath then site.dir.read loc.absPath else none with
    | none => .error ⟨500,"internal error"⟩
    | some bytes =>
      if !calls.seeks then .error ⟨500,"internal error"⟩
      else
        let data := slice bytes loc.offset loc.size
        .ok (data.take (calls.copied.getD data.length))

inductive Input
  | apiContentManifest (r : Request)
  | apiContentChunk (r : Request) (hash : Text)

inductive Answer
  | refused (e : Refusal)
  | manifest (files : List ContentFileEntry)
  | chunk (data : List UInt8)

def Answer.ofChunk : Except Refusal (List UInt8) → Answer
  | .error e => .refused e
  | .ok data => .chunk data

/-- A request leaves the cache as it is where it fails before the index is looked up. -/
def step (cache : Option Cache) : Input → Option Cache × Answer
  | .apiContentManifest r =>
    match freshCache w site cache r with
    | .error e => (cache,.refused e)
    | .ok c => (some c,.manifest c.files)
  | .apiContentChunk r hash =>
    match freshCache w site cache r with
    | .error e => (cache,.refused e)
    | .ok c => (some c,.ofChunk (chunkAt w site r.calls c.chunkIndex hash))

variable (before : List Input)

def relayFetch (r : Request) (hash : Text) : Option (List UInt8) :=
  match (step w site (final (step w site) none before) (.apiContentChunk r hash)).2 with
  | .chunk data => some data
  | _ => none

def chunkHashMatches (data : List UInt8) (hash : Text) : Bool := chunkHash w data = w.toLower hash

/-- The first of the answers of the peers and the relay that has the hash. -/
def fetchChunk (offers : List (List UInt8)) (hash : Text) : Option (List UInt8) :=
  offers.find? (fun data => chunkHashMatches w data hash)

def abs (path : Text) : Place := join [w.dataDir,path]

/-- What a mirror downloads for a list of hashes, of which the nth is asked for with the nth answer. -/
def syncFile (fetch : Nat → Text → Option (List UInt8)) : Nat → List Text → Option (List UInt8)
  | _, [] => some []
  | i, hash :: rest =>
    match fetchChunk w (fetch i hash).toList hash with
    | none => none
    | some data => (syncFile fetch (i + 1) rest).map (data ++ ·)

structure ChunkLoc where
  path : Place
  offset : Int
  size : Int

def indexHashes (f : ContentFileEntry) : List Text → Int → Table Text ChunkLoc → Table Text ChunkLoc
  | [], _, idx => idx
  | hash :: rest, offset, idx =>
    let remaining := f.size - offset
    let size := if remaining < f.chunkSize then remaining else f.chunkSize
    indexHashes f rest (offset + size) (idx.insert hash ⟨abs w f.path,offset,size⟩)

def buildChunkIndex : Table Text ChunkLoc :=
  files.foldl (fun idx f => indexHashes w f f.chunkHashes 0 idx) ∅

def serveChunk (disk : Disk Place) (idx : Table Text ChunkLoc) (hash : Text) : Option (List UInt8) :=
  match idx.lookup hash with
  | none => none
  | some loc =>
    match disk.read loc.path with
    | none => none
    | some bytes =>
      if loc.offset < 0 ∨ loc.size < 0 ∨ bytes.length < loc.offset + loc.size then none
      else some (slice bytes loc.offset.toNat loc.size.toNat)

def chunks (dir : Dir) : List (List UInt8) := dir.files.flatMap (fun s => tiles contentChunkSize s.bytes)

def CollisionFree (dir : Dir) : Prop := ∀ a ∈ chunks dir, ∀ b ∈ chunks dir, w.sha256 a = w.sha256 b → a = b

structure Lists (s : Source) (f : ContentFileEntry) : Prop where
  path : f.path = s.path
  size : f.size = s.bytes.length
  chunkSize : f.chunkSize = contentChunkSize
  tiled : ∃ parts : List (List UInt8), parts.flatten = s.bytes ∧ f.chunkHashes = parts.map (chunkHash w) ∧
    (∀ part ∈ parts, 0 < part.length ∧ part.length ≤ f.chunkSize) ∧ ∀ part ∈ parts.dropLast, part.length = f.chunkSize

def HoldsAt (offset size : Nat) (hash : Text) : Prop :=
  offset + size ≤ s.bytes.length ∧ chunkHash w (slice s.bytes offset size) = hash

structure Calls.Succeed (calls : Calls) : Prop where
  lists : calls.lists = true
  walks : calls.walks = true
  opens : ∀ path, calls.opens path = true
  reads : ∀ path n, calls.reads path n = true
  signs : calls.signs = true
  seeks : calls.seeks = true
  copied : calls.copied = none

structure Answered (r : Request) : Prop where
  node : ∃ node, authRelayNode r = .ok node
  succeed : r.calls.Succeed

/-- The list and the index that the arbiter has built. A client that gets answers restores every file
    (`restored`); its own index has every listed chunk (`indexed`), and once the files are on its disk it
    serves them to others (`served`). -/
structure RoundTrip (files : List ContentFileEntry) (index : Index) : Prop where
  listed : (files.map ContentFileEntry.path).Perm (site.dir.files.map Source.path)
  tiled : ∀ s ∈ site.dir.files, ∀ f ∈ files, f.path = s.path → Lists w s f
  located : ∀ hash loc, index.lookup hash = some loc →
    ∃ s ∈ site.dir.files, s.path = loc.absPath ∧ HoldsAt w s loc.offset loc.size hash
  restored : site.contentDir ≠ [] → ∀ s ∈ site.dir.files, ∀ f ∈ files, f.path = s.path →
    ∀ (before : Nat → List Input) (r : Nat → Request), (∀ i, Answered (r i)) →
      syncFile w (fun i => relayFetch w site (before i) (r i)) 0 f.chunkHashes = some s.bytes
  indexed : ∀ f ∈ files, ∀ hash ∈ f.chunkHashes, ∃ loc ∈ (buildChunkIndex w files).lookup hash,
    ∃ s ∈ site.dir.files, loc.path = abs w s.path ∧ 0 ≤ loc.offset ∧ 0 ≤ loc.size ∧
      HoldsAt w s loc.offset.toNat loc.size.toNat hash
  served : ∀ disk : Disk Place, (∀ s ∈ site.dir.files, disk.read (abs w s.path) = some s.bytes) →
    ∀ f ∈ files, ∀ hash ∈ f.chunkHashes,
      ∃ data, serveChunk disk (buildChunkIndex w files) hash = some data ∧ chunkHash w data = hash

variable {w site}

def places (w : World) (path : Text) (offset : Nat) (parts : List (List UInt8)) : List (Text × ChunkLocation) :=
  (placed offset parts).map (fun p => (chunkHash w p.2,⟨path,p.1,p.2.length⟩))

def filePlaces (w : World) (s : Source) : List (Text × ChunkLocation) := places w s.path 0 (tiles contentChunkSize s.bytes)

def entryOf (w : World) (s : Source) : ContentFileEntry :=
  ⟨s.path,s.bytes.length,contentChunkSize,(tiles contentChunkSize s.bytes).map (chunkHash w)⟩

variable {part : List UInt8} {parts : List (List UInt8)} {s} {hash : Text} {c : Cache}

theorem places_cons {path : Text} {offset : Nat} (index : Index) :
    enter (places w path offset (part :: parts)) index =
      enter (places w path (offset + part.length) parts) (index.insert (chunkHash w part) ⟨path,offset,part.length⟩) := rfl

theorem chunkSize_pos : 0 < contentChunkSize := by decide

theorem readChunks_spec (calls : Calls) (path : Text) (reads : Nat) (rest : List UInt8) (hashes : List Text) (index : Index)
    (offset : Nat) :
    readChunks w calls path reads rest hashes index offset =
        some (hashes ++ (tiles contentChunkSize rest).map (chunkHash w),
          enter (places w path offset (tiles contentChunkSize rest)) index,offset + rest.length) ∨
      readChunks w calls path reads rest hashes index offset = none ∧ ∃ n, calls.reads path n = false := by
  fun_induction readChunks w calls path reads rest hashes index offset with
  | case1 reads rest hashes index offset fails => exact .inr ⟨rfl,reads,by simpa using fails⟩
  | case2 reads rest hashes index offset reading ends =>
    grind [tiles_nil,places,placed,enter]
  | case3 reads rest hashes index offset reading more buf h hashes' index' offset' short =>
    have all : rest.length < contentChunkSize := by
      rw [length_take] at short
      omega
    refine .inl ?_
    rw [tiles_short chunkSize_pos more all.le]
    simp only [hashes',index',offset',h,buf,take_of_length_le all.le]
    rfl
  | case4 reads rest hashes index offset reading more buf h hashes' index' offset' full ih =>
    have left : buf.length + (rest.drop contentChunkSize).length = rest.length := by
      rw [← length_append,take_append_drop]
    rw [tiles_step chunkSize_pos more,places_cons,map_cons,← singleton_append,← append_assoc,← left,
      ← Nat.add_assoc]
    exact ih

theorem walk_spec (calls : Calls) (rest : List Source) (files : List ContentFileEntry) (index : Index) :
    walk w calls rest files index = some (files ++ rest.map (entryOf w),enter (rest.flatMap (filePlaces w)) index) ∨
      walk w calls rest files index = none ∧ ∃ path, calls.opens path = false ∨ ∃ n, calls.reads path n = false := by
  induction rest generalizing files index with
  | nil => exact .inl (by simp [walk,enter])
  | cons s rest ih =>
    grind [readChunks_spec,listFile,entryOf,filePlaces,walk,enter_append]

def builtFiles (w : World) (dir : Dir) : List ContentFileEntry := w.sortFiles (dir.files.map (entryOf w))

def builtIndex (w : World) (dir : Dir) : Index := enter (dir.files.flatMap (filePlaces w)) ∅

variable {calls : Calls} {dir : Dir}

theorem build_eq {out : List ContentFileEntry × Index}
    (built : buildContentFileList w calls dir = some out) : out = (builtFiles w dir,builtIndex w dir) := by
  unfold buildContentFileList at built
  split at built
  case isTrue => cases built
  case isFalse walks =>
    rcases walk_spec (w := w) calls dir.files [] ∅ with all | ⟨broken,-⟩
    · rw [all] at built
      exact (Option.some.inj built).symm
    · rw [broken] at built
      cases built

theorem build_succeeds (succeed : calls.Succeed) (dir : Dir) :
    buildContentFileList w calls dir = some (builtFiles w dir,builtIndex w dir) := by
  rcases walk_spec (w := w) calls dir.files [] ∅ with all | ⟨-,path,closed | ⟨n,broken⟩⟩
  · simp only [buildContentFileList,succeed.walks,all]
    rfl
  · exact absurd (succeed.opens path) (by simp [closed])
  · exact absurd (succeed.reads path n) (by simp [broken])

theorem chunk_at {offset : Nat}
    (mem : (offset,part) ∈ placed 0 (tiles contentChunkSize s.bytes)) :
    slice s.bytes offset part.length = part ∧ offset + part.length ≤ s.bytes.length := by
  have same : slice ([] ++ (tiles contentChunkSize s.bytes).flatten) offset part.length = part := slice_placed mem
  rw [nil_append,flatten_tiles chunkSize_pos] at same
  refine ⟨same,?_⟩
  have pos := (length_tile (mem_of_mem_placed mem)).1
  have long := congrArg List.length same
  rw [slice,length_take,length_drop] at long
  omega

theorem located_chunk {loc : ChunkLocation} (found : (builtIndex w dir).lookup hash = some loc) :
    ∃ s ∈ dir.files, s.path = loc.absPath ∧ loc.offset + loc.size ≤ s.bytes.length ∧
      slice s.bytes loc.offset loc.size ∈ chunks dir ∧ chunkHash w (slice s.bytes loc.offset loc.size) = hash := by
  rcases of_lookup_enter found with mem | none
  · obtain ⟨s,file,entry⟩ := mem_flatMap.mp mem
    obtain ⟨⟨offset,part⟩,place,same⟩ := mem_map.mp entry
    cases same
    obtain ⟨bytes,inside⟩ := chunk_at place
    refine ⟨s,file,rfl,inside,?_⟩
    rw [bytes]
    exact ⟨mem_flatMap.mpr ⟨s,file,mem_of_mem_placed place⟩,rfl⟩
  · cases none

theorem map_fst_places (path : Text) (offset : Nat) (parts : List (List UInt8)) :
    (places w path offset parts).map Prod.fst = parts.map (chunkHash w) := by
  induction parts generalizing offset with
  | nil => rfl
  | cons part rest ih => exact congrArg (chunkHash w part :: ·) (ih _)

theorem chunk_located (mem : part ∈ chunks dir) :
    ∃ loc, (builtIndex w dir).lookup (chunkHash w part) = some loc := by
  obtain ⟨s,file,tile⟩ := mem_flatMap.mp mem
  refine Option.isSome_iff_exists.mp (lookup_enter (.inl ?_))
  grind [filePlaces,map_fst_places,mem_map_of_mem]

theorem read_source (file : s ∈ dir.files) : dir.read s.path = some s.bytes := by
  have some : (dir.files.find? (fun t => t.path = s.path)).isSome := List.find?_isSome.mpr ⟨s,file,decide_eq_true rfl⟩
  grind [Option.isSome_iff_exists,Dir.read,inj_on_of_nodup_map,dir.apart]

theorem chunkHash_injective {a b : List UInt8} (same : chunkHash w a = chunkHash w b) : w.sha256 a = w.sha256 b :=
  hexEncode_injective (String.toList_injective same)

theorem chunkAt_served (free : CollisionFree w site.dir) (succeed : calls.Succeed)
    (mem : part ∈ chunks site.dir) :
    chunkAt w site calls (builtIndex w site.dir) (chunkHash w part) = .ok part := by
  obtain ⟨loc,found⟩ := chunk_located (w := w) mem
  obtain ⟨s,file,path,-,chunk,hash⟩ := located_chunk found
  have same := free _ chunk _ mem (chunkHash_injective hash)
  grind [chunkHash,w.lower,chunkAt,succeed.opens,read_source,succeed.seeks,succeed.copied]

def builtCache (w : World) (dir : Dir) : Cache :=
  ⟨builtFiles w dir,['\n'].intercalate (insertSort id (dir.files.map fingerprintLine)),builtIndex w dir⟩

def Current (w : World) (site : Site) (cache : Option Cache) : Prop := cache = none ∨ cache = some (builtCache w site.dir)

theorem dirFingerprint_eq {state : Text} (listed : dirFingerprint calls dir = some state) :
    state = (builtCache w dir).dirState := by
  unfold dirFingerprint at listed
  split at listed
  case isTrue => cases listed
  case isFalse => exact (Option.some.inj listed).symm

theorem rebuild_eq (built : rebuild w calls dir (builtCache w dir).dirState = some c) :
    c = builtCache w dir := by
  unfold rebuild at built
  cases out : buildContentFileList w calls dir with
  | none => simp [out] at built
  | some lists =>
    cases build_eq out
    simp only [out] at built
    split at built
    case isTrue => cases built
    case isFalse => exact (Option.some.inj built).symm

variable {cache : Option Cache}

theorem ensureFresh_eq (current : Current w site cache)
    (fresh : ensureFresh w calls site.dir cache = some c) : c = builtCache w site.dir := by
  unfold ensureFresh at fresh
  cases listed : dirFingerprint calls site.dir with
  | none => simp [listed] at fresh
  | some state =>
    cases dirFingerprint_eq (w := w) listed
    rcases current with rfl | rfl
    · simp only [listed] at fresh
      exact rebuild_eq fresh
    · simp only [listed] at fresh
      exact (Option.some.inj fresh).symm

theorem ensureFresh_succeeds (succeed : calls.Succeed) (current : Current w site cache) :
    ensureFresh w calls site.dir cache = some (builtCache w site.dir) := by
  have listed : dirFingerprint calls site.dir = some (builtCache w site.dir).dirState := by
    simp only [dirFingerprint,succeed.lists]
    rfl
  rcases current with rfl | rfl
  · simp only [ensureFresh,listed,rebuild,build_succeeds succeed,succeed.signs]
    rfl
  · simp only [ensureFresh,listed,if_true]

theorem freshCache_eq {r : Request} (current : Current w site cache)
    (fresh : freshCache w site cache r = .ok c) : c = builtCache w site.dir := by
  unfold freshCache at fresh
  grind [ensureFresh_eq]

theorem step_current (current : Current w site cache) (i : Input) :
    Current w site (step w site cache i).1 := by
  have kept : ∀ (r : Request) (f : Cache → Answer), Current w site (match freshCache w site cache r with
      | .error e => (cache,Answer.refused e)
      | .ok c => (some c,f c)).1 := by
    intro r f
    cases fresh : freshCache w site cache r with
    | error e => exact current
    | ok c => exact .inr (congrArg some (freshCache_eq current fresh))
  cases i with
  | apiContentManifest r => exact kept r _
  | apiContentChunk r hash => exact kept r _

theorem run_current : Current w site (final (step w site) none before) :=
  state_run (P := Current w site) (fun _ i current => step_current current i) before (.inl rfl)

theorem relayFetch_served (free : CollisionFree w site.dir) (mirrored : site.contentDir ≠ []) (before : List Input) {r : Request}
    (answered : Answered r) (mem : part ∈ chunks site.dir) :
    relayFetch w site before r (chunkHash w part) = some part := by
  obtain ⟨node,auth⟩ := answered.node
  have fresh : freshCache w site (final (step w site) none before) r = .ok (builtCache w site.dir) := by
    grind [freshCache,ensureFresh_succeeds,answered.succeed,run_current]
  have served := chunkAt_served free answered.succeed mem
  simp only [relayFetch,step,fresh]
  simp only [builtCache,served]
  rfl

theorem syncFile_joins {fetch : Nat → Text → Option (List UInt8)}
    (fetched : ∀ i, ∀ part ∈ parts, fetch i (chunkHash w part) = some part) (i : Nat) :
    syncFile w fetch i (parts.map (chunkHash w)) = some parts.flatten := by
  induction parts generalizing i with
  | nil => rfl
  | cons part rest ih =>
    grind [chunkHashMatches,chunkHash,w.lower,syncFile,fetchChunk]

def hashPlaces (w : World) (f : ContentFileEntry) : List Text → Int → List (Text × ChunkLoc)
  | [], _ => []
  | hash :: rest, offset =>
    let size := if f.size - offset < f.chunkSize then f.size - offset else f.chunkSize
    (hash,⟨abs w f.path,offset,size⟩) :: hashPlaces w f rest (offset + size)

theorem indexHashes_eq (f : ContentFileEntry) (hashes : List Text) (offset : Int) (idx : Table Text ChunkLoc) :
    indexHashes w f hashes offset idx = enter (hashPlaces w f hashes offset) idx := by
  induction hashes generalizing offset idx with
  | nil => rfl
  | cons hash rest ih => exact ih _ _

theorem buildChunkIndex_eq :
    buildChunkIndex w files = enter (files.flatMap (fun f => hashPlaces w f f.chunkHashes 0)) ∅ := by
  have all : ∀ idx, files.foldl (fun idx f => indexHashes w f f.chunkHashes 0 idx) idx =
      enter (files.flatMap (fun f => hashPlaces w f f.chunkHashes 0)) idx := by
    induction files with
    | nil => exact fun _ => rfl
    | cons f rest ih =>
      grind [indexHashes_eq,enter_append]
  exact all ∅

theorem map_fst_hashPlaces (f : ContentFileEntry) (hashes : List Text) (offset : Int) :
    (hashPlaces w f hashes offset).map Prod.fst = hashes := by
  induction hashes generalizing offset with
  | nil => rfl
  | cons hash rest ih => exact congrArg (hash :: ·) (ih _)

variable {f : ContentFileEntry}

theorem hashPlaces_tiles (rest : List UInt8) (offset : Nat)
    (size : f.size = offset + rest.length) :
    hashPlaces w f ((tiles f.chunkSize rest).map (chunkHash w)) offset =
      (placed offset (tiles f.chunkSize rest)).map
        (fun p => (chunkHash w p.2,⟨abs w f.path,p.1,p.2.length⟩)) := by
  fun_induction tiles f.chunkSize rest generalizing offset with
  | case1 rest ends => rfl
  | case2 rest goes ih =>
    have next : (if (f.size : Int) - offset < f.chunkSize then (f.size : Int) - offset else f.chunkSize) =
        (rest.take f.chunkSize).length := by
      rw [length_take]
      split <;> omega
    have left : f.size = offset + (rest.take f.chunkSize).length + (rest.drop f.chunkSize).length := by
      rw [size,Nat.add_assoc,← length_append,take_append_drop]
    grind [hashPlaces,placed]

theorem mem_builtFiles : f ∈ builtFiles w dir ↔ ∃ s ∈ dir.files, entryOf w s = f := by
  rw [builtFiles,(w.sorts.perm _).mem_iff,mem_map]

theorem entry_of_path (file : s ∈ dir.files) (listed : f ∈ builtFiles w dir)
    (same : f.path = s.path) : f = entryOf w s := by
  obtain ⟨t,other,rfl⟩ := mem_builtFiles.mp listed
  rw [inj_on_of_nodup_map dir.apart other file same]

theorem entry_lists (s : Source) : Lists w s (entryOf w s) where
  path := rfl
  size := rfl
  chunkSize := rfl
  tiled := ⟨tiles contentChunkSize s.bytes,flatten_tiles chunkSize_pos,rfl,fun _ => length_tile,fun _ => length_tile_inner⟩

theorem client_indexed (listed : f ∈ builtFiles w dir) (mem : hash ∈ f.chunkHashes) :
    ∃ loc ∈ (buildChunkIndex w (builtFiles w dir)).lookup hash, ∃ s ∈ dir.files, loc.path = abs w s.path ∧
      0 ≤ loc.offset ∧ 0 ≤ loc.size ∧ HoldsAt w s loc.offset.toNat loc.size.toNat hash := by
  rw [buildChunkIndex_eq]
  have entered : hash ∈ ((builtFiles w dir).flatMap (fun f => hashPlaces w f f.chunkHashes 0)).map Prod.fst := by
    grind [map_flatMap,map_fst_hashPlaces]
  obtain ⟨loc,found⟩ := Option.isSome_iff_exists.mp (lookup_enter (t := ∅) (.inl entered))
  refine ⟨loc,found,?_⟩
  rcases of_lookup_enter found with place | none
  · obtain ⟨g,other,place⟩ := mem_flatMap.mp place
    obtain ⟨s,file,rfl⟩ := mem_builtFiles.mp other
    have counted := hashPlaces_tiles (w := w) (f := entryOf w s) s.bytes 0 (Nat.zero_add _).symm
    obtain ⟨⟨offset,part⟩,tile,same⟩ := mem_map.mp (counted ▸ place)
    cases same
    obtain ⟨bytes,inside⟩ := chunk_at tile
    exact ⟨s,file,rfl,Int.natCast_nonneg _,Int.natCast_nonneg _,inside,congrArg (chunkHash w) bytes⟩
  · cases none

theorem serveChunk_served {disk : Disk Place} (mirrored : ∀ s ∈ site.dir.files, disk.read (abs w s.path) = some s.bytes)
    (listed : f ∈ builtFiles w site.dir) (mem : hash ∈ f.chunkHashes) :
    ∃ data, serveChunk disk (buildChunkIndex w (builtFiles w site.dir)) hash = some data ∧ chunkHash w data = hash := by
  obtain ⟨loc,found,s,file,path,offset,size,inside,hashed⟩ := client_indexed listed mem
  grind [serveChunk]

theorem built_round_trip (free : CollisionFree w site.dir) :
    RoundTrip w site (builtFiles w site.dir) (builtIndex w site.dir) := by
  constructor
  case listed =>
    refine ((w.sorts.perm _).map _).trans ?_
    rw [map_map]
    exact .refl _
  case tiled =>
    intro s file f listed same
    rw [entry_of_path file listed same]
    exact entry_lists s
  case located =>
    intro hash loc found
    obtain ⟨s,file,path,inside,-,hashed⟩ := located_chunk found
    exact ⟨s,file,path,inside,hashed⟩
  case restored =>
    intro mirrored s file f listed same before r answered
    rw [entry_of_path file listed same]
    have fetched : ∀ i, ∀ part ∈ tiles contentChunkSize s.bytes,
        relayFetch w site (before i) (r i) (chunkHash w part) = some part :=
      fun i part tile => relayFetch_served free mirrored (before i) (answered i) (mem_flatMap.mpr ⟨s,file,tile⟩)
    have joined := syncFile_joins fetched 0
    rwa [flatten_tiles chunkSize_pos] at joined
  case indexed =>
    intro f listed hash mem
    exact client_indexed listed mem
  case served =>
    intro disk mirrored f listed hash mem
    exact serveChunk_served mirrored listed mem

theorem content_round_trip (free : CollisionFree w site.dir) (calls : Calls) :
    (calls.Succeed → (buildContentFileList w calls site.dir).isSome) ∧
      ∀ files index, buildContentFileList w calls site.dir = some (files,index) → RoundTrip w site files index := by
  constructor
  · intro succeed
    rw [build_succeeds succeed]
    rfl
  · intro files index built
    cases build_eq built
    exact built_round_trip free

def sampleWorld : World where
  dataDir := "mirror".toList
  sha256 data := data
  toLower text := text
  lower _ := rfl
  sortFiles := insertSort ContentFileEntry.path
  sorts := insertSort_sorts _

def sampleSite : Site where
  contentDir := "content".toList
  dir := ⟨[⟨"a".toList,[],0⟩,⟨"b".toList,List.replicate (2 * contentChunkSize + 1) 7,0⟩,⟨"c".toList,[7],0⟩],by decide⟩

def sampleCalls : Calls := ⟨true,true,fun _ => true,fun _ _ => true,true,true,none⟩

def sampleNode : Nodes.Node := ⟨1,1,.control,"198.51.100.1:443","",some "t",.approved,none,0,0,none,"","",false,none⟩

def sampleRequest : Request := ⟨.quiet 0,⟨[⟨1,"operator"⟩],1,[sampleNode],[],[],[],[],Dict.empty⟩,"t",sampleCalls⟩

theorem sampleCalls_succeed : sampleCalls.Succeed := by
  constructor <;> intros <;> rfl

theorem content_round_trip_sample : Answered sampleRequest ∧ CollisionFree sampleWorld sampleSite.dir ∧
    ∃ files index, buildContentFileList sampleWorld sampleCalls sampleSite.dir = some (files,index) ∧
      RoundTrip sampleWorld sampleSite files index := by
  have free : CollisionFree sampleWorld sampleSite.dir := fun _ _ _ _ same => same
  have built := build_succeeds (w := sampleWorld) sampleCalls_succeed sampleSite.dir
  refine ⟨⟨⟨sampleNode,by rfl⟩,sampleCalls_succeed⟩,free,_,_,built,?_⟩
  exact (content_round_trip free sampleCalls).2 _ _ built

end TunnelCat.ContentChunks
