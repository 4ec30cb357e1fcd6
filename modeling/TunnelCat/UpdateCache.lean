import TunnelCat.HostPort
import TunnelCat.Manifest
import TunnelCat.Paths

/-!
The client updates that a control keeps (`snc-control/client_cache.go`) and serves
(`snc-control/update_http.go`). Each has a slug, and its files lie in the directory of that
name in the cache directory.

A slug is taken as it comes, from the path of a request or from the manifest of an exit, and
may lead out of the cache directory. `confined_iff` says which ones do not: those that go up
only to come down again through the last names of the cache directory.
-/
namespace TunnelCat.UpdateCache
open List
open HostPort (Text)
open NetIP (hexValue)
open Manifest (trimSpace)
open Paths Paths.Place

/-- `-update-dir`. Without one there is no cache. -/
structure CacheDir where
  text : Text
  named : text ≠ []

def CacheDir.place (c : CacheDir) : Place := clean c.text

inductive Kind
  | version
  | sha256
  | sig
  | bin

def Kind.fileName : Kind → Text
  | .version => "version".toList
  | .sha256 => "sha256".toList
  | .sig => "sig".toList
  | .bin => "bin".toList

def Kind.contentType : Kind → Text
  | .bin => "application/octet-stream".toList
  | .version | .sha256 | .sig => "text/plain; charset=utf-8".toList

structure Wanted where
  slug : Text
  kind : Kind

def cutEnding (ending s : Text) : Option Text :=
  if ending <:+ s then some (s.take (s.length - ending.length)) else none

def parseClientUpdatePath (path : Text) : Option Wanted :=
  if "/client-".toList <+: path then
    let rest := path.drop "/client-".toList.length
    let wanted : Wanted :=
      match cutEnding "-version".toList rest, cutEnding ".sha256".toList rest, cutEnding ".sig".toList rest with
      | some slug, _, _ => ⟨slug,.version⟩
      | none, some slug, _ => ⟨slug,.sha256⟩
      | none, none, some slug => ⟨slug,.sig⟩
      | none, none, none => ⟨rest,.bin⟩
    if wanted.slug = [] then none else some wanted
  else none

def cleanPath (path : Text) : Text :=
  let p := if path.head? = some '/' then path else '/' :: path
  let np := (clean p).text
  if p.getLast? = some '/' ∧ np ≠ ['/'] then np ++ ['/'] else np

def unescape : Text → Option Text
  | [] => some []
  | '%' :: high :: low :: rest =>
    match hexValue high, hexValue low with
    | some h, some l => (unescape rest).map (Char.ofNat (16 * h + l) :: ·)
    | _, _ => none
  | c :: rest => if c = '%' then none else (unescape rest).map (c :: ·)

inductive Method
  | get
  | head
  | other
deriving DecidableEq

structure Request where
  method : Method
  escapedPath : Text

/-- What the handler makes of a request. The mux answers one whose path is not clean with a
    redirect; it looks at the path with its escapes, the handler at the path without them. -/
def requested (r : Request) : Option Wanted :=
  if cleanPath r.escapedPath ≠ r.escapedPath then none
  else if r.method = .other then none
  else (unescape r.escapedPath).bind parseClientUpdatePath

def fileRead (c : CacheDir) (r : Request) : Option Place :=
  (requested r).map (fun w => join [c.text,w.slug,w.kind.fileName])

structure ManifestEntry where
  available : Bool
  version : Text
  hash : Text
  sig : Text

inductive FileKind
  | dir
  | other
deriving DecidableEq

inductive Download
  | refused
  | broken
  | kept

/-- What the calls of `fetchOne` find, and how they go. The cache directory is there. A
    `MkdirAll` that fails may have made some directories. -/
structure Around (c : CacheDir) where
  cached : Option Text
  exit : Bool
  lstat : Place → Option FileKind
  there : ∀ q ∈ onTheWay c.place, lstat q = some .dir
  removes : Bool
  mkdirFails : Option Nat
  download : Download
  renames : Bool

inductive Change
  | creates (p : Place)
  | renames (p q : Place)
  | removes (p : Place)

def Change.places : Change → List Place
  | .creates p => [p]
  | .renames p q => [p,q]
  | .removes p => [p]

variable (c : CacheDir)

def cleanupLegacyCache (a : Around c) : List Change :=
  let legacyNames := ["client","client.sha256","version","client-android","client-android-version",
    "client-android.sha256","macos","macos-version","macos.sha256"]
  let paths := legacyNames.map (fun name => join [c.text,name.toList])
  (paths.filter (fun p => a.lstat p = some .other && a.removes)).map .removes

def install (a : Around c) (slugDir : Place) (sig : Text) : List Change :=
  let tmpPath := slugDir.step "bin.tmp".toList
  let finalPath := slugDir.step "bin".toList
  match a.download with
  | .refused => [.removes tmpPath]
  | .broken => [.creates tmpPath,.removes tmpPath]
  | .kept =>
    if a.renames then
      [.creates tmpPath,.renames tmpPath finalPath,.creates (slugDir.step "sha256".toList),
        .creates (slugDir.step "version".toList),
        if sig ≠ [] then .creates (slugDir.step "sig".toList) else .removes (slugDir.step "sig".toList)]
    else [.creates tmpPath,.removes tmpPath]

def mkdirAll (a : Around c) (slugDir : Place) (stale : Bool) : List Change :=
  ((onTheWay slugDir).filter (fun q => a.lstat q = none || (stale && q = slugDir))).map .creates

def fetchOne (a : Around c) (slug version sig : Text) : List Change :=
  let remoteVersion := trimSpace version
  if remoteVersion = [] then []
  else if trimSpace (a.cached.getD []) = remoteVersion then []
  else if !a.exit then []
  else
    let slugDir := join [c.text,slug]
    let stale : Bool := a.lstat slugDir = some .other
    if stale && !a.removes then []
    else
      let removed := if stale then [.removes slugDir] else []
      let made := mkdirAll c a slugDir stale
      match a.mkdirFails with
      | some n => removed ++ made.take n
      | none => removed ++ made ++ install c a slugDir sig

variable (manifest : List (Text × ManifestEntry))

def fetchAll (around : Text → Around c) (manifest : List (Text × ManifestEntry)) : List Change :=
  manifest.flatMap (fun (slug, entry) =>
    if entry.available then fetchOne c (around slug) slug entry.version entry.sig else [])

def clientCache (legacy : Around c) (around : Text → Around c) (manifest : List (Text × ManifestEntry)) : List Change :=
  cleanupLegacyCache c legacy ++ fetchAll c around manifest

/-- No file outside of the cache directory is read. -/
def ReadsInside (r : Request) : Prop := ∀ p ∈ fileRead c r, Below c.place p

/-- Nothing outside of the cache directory is created, renamed or removed. -/
def ChangesInside : Prop :=
  ∀ legacy around, ∀ change ∈ clientCache c legacy around manifest, ∀ p ∈ change.places, Below c.place p

/-- A path goes up from the cache directory at most to come down again through its last
    names. -/
def StaysIn (components : List Name) : Prop :=
  let r := here.walk components
  (r.ups ≤ c.place.names.length ∨ c.place.rooted = true) ∧
    c.place.names.drop (c.place.names.length - r.ups) <+: r.names

instance StaysIn.decidable (components : List Name) : Decidable (StaysIn c components) := by
  unfold StaysIn
  infer_instance

variable {c}

theorem below_walk_iff (components : List Name) : Below c.place (c.place.walk components) ↔ StaysIn c components := by
  rw [walk_eq_follow]
  exact below_follow_iff c.place (here.walk components)

theorem join_slug (slug : Text) : join [c.text,slug] = c.place.walk (slug.splitOn '/') := by
  rw [join_cons c.named]
  simp [CacheDir.place]

theorem Kind.splitOn_fileName (kind : Kind) : kind.fileName.splitOn '/' = [kind.fileName] := by
  cases kind <;> decide

theorem fileRead_eq (r : Request) :
    fileRead c r = (requested r).map (fun w => c.place.walk (w.slug.splitOn '/' ++ [w.kind.fileName])) := by
  unfold fileRead
  congr 1
  funext w
  rw [join_cons c.named]
  simp [CacheDir.place,w.kind.splitOn_fileName]

theorem readsInside_iff (r : Request) :
    ReadsInside c r ↔ ∀ w ∈ requested r, StaysIn c (w.slug.splitOn '/' ++ [w.kind.fileName]) := by
  grind [ReadsInside,fileRead_eq,Option.mem_def,Option.map_eq_some_iff,below_walk_iff]

variable {p : Place}

theorem below_file {name : Name} (below : Below c.place p) (plain : Proper name) :
    Below c.place (p.step name) := by
  rw [step_proper p plain]
  exact below_down below _ _

variable {change : Change} {a : Around c}

theorem cleanup_inside (done : change ∈ cleanupLegacyCache c a)
    (touched : p ∈ change.places) : Below c.place p := by
  simp only [cleanupLegacyCache,mem_map,mem_filter] at done
  obtain ⟨q,⟨⟨name,legacy,rfl⟩,-⟩,rfl⟩ := done
  rw [mem_singleton.mp touched,join_slug,below_walk_iff]
  -- each of the old names is one component
  have plain : ∀ name ∈ ["client","client.sha256","version","client-android","client-android-version",
      "client-android.sha256","macos","macos-version","macos.sha256"],
      (here.walk (name.toList.splitOn '/')).ups = 0 := by decide
  simp [StaysIn,plain name legacy]

def fileNames : List Name := ["bin.tmp".toList,"bin".toList,"sha256".toList,"version".toList,"sig".toList]

theorem fileNames_proper : ∀ name ∈ fileNames, Proper name := by decide

variable {slugDir : Place} {sig : Text}

theorem install_files
    (done : change ∈ install c a slugDir sig) (touched : p ∈ change.places) :
    ∃ name ∈ fileNames, p = slugDir.step name := by
  unfold install at done
  cases went : a.download with
  | refused =>
    simp only [went,mem_singleton] at done
    subst done
    exact ⟨_,by simp [fileNames],mem_singleton.mp touched⟩
  | broken =>
    simp only [went,mem_cons,not_mem_nil,or_false] at done
    rcases done with rfl | rfl <;> exact ⟨"bin.tmp".toList,by simp [fileNames],mem_singleton.mp touched⟩
  | kept =>
    simp only [went] at done
    by_cases renamed : a.renames = true
    · simp only [renamed,if_true,mem_cons,not_mem_nil,or_false] at done
      rcases done with rfl | rfl | rfl | rfl | rfl
      · exact ⟨"bin.tmp".toList,by simp [fileNames],mem_singleton.mp touched⟩
      · rcases mem_pair.mp touched with rfl | rfl
        · exact ⟨"bin.tmp".toList,by simp [fileNames],rfl⟩
        · exact ⟨"bin".toList,by simp [fileNames],rfl⟩
      · exact ⟨"sha256".toList,by simp [fileNames],mem_singleton.mp touched⟩
      · exact ⟨"version".toList,by simp [fileNames],mem_singleton.mp touched⟩
      · refine ⟨"sig".toList,by simp [fileNames],?_⟩
        split_ifs at touched <;> exact mem_singleton.mp touched
    · simp only [renamed,if_false,Bool.false_eq_true,mem_cons,not_mem_nil,or_false] at done
      rcases done with rfl | rfl <;> exact ⟨"bin.tmp".toList,by simp [fileNames],mem_singleton.mp touched⟩

theorem install_inside (below : Below c.place slugDir)
    (done : change ∈ install c a slugDir sig) (touched : p ∈ change.places) : Below c.place p := by
  grind [install_files,below_file,fileNames_proper]

theorem mkdirAll_inside {stale : Bool} (below : Below c.place slugDir)
    (done : change ∈ mkdirAll c a slugDir stale) (touched : p ∈ change.places) : Below c.place p := by
  simp only [mkdirAll,mem_map,mem_filter,Bool.or_eq_true,decide_eq_true_eq,Bool.and_eq_true] at done
  obtain ⟨q,⟨way,missing⟩,rfl⟩ := done
  rw [mem_singleton.mp touched]
  grind [onTheWay_cases,a.there]

theorem fetchOne_inside {slug version : Text} (stays : StaysIn c (slug.splitOn '/'))
    (done : change ∈ fetchOne c a slug version sig) (touched : p ∈ change.places) :
    Below c.place p := by
  have below : Below c.place (join [c.text,slug]) := by
    rw [join_slug,below_walk_iff]
    exact stays
  have later {removed : List Change} {stale : Bool} (only : ∀ x ∈ removed, x = .removes (join [c.text,slug]))
      (done : change ∈ match a.mkdirFails with
        | some n => removed ++ (mkdirAll c a (join [c.text,slug]) stale).take n
        | none => removed ++ mkdirAll c a (join [c.text,slug]) stale ++ install c a (join [c.text,slug]) sig) :
      Below c.place p := by
    have first (member : change ∈ removed) : Below c.place p := by
      rw [only change member] at touched
      rw [mem_singleton.mp touched]
      exact below
    grind [mkdirAll_inside,install_inside]
  unfold fetchOne at done
  dsimp only at done
  split_ifs at done
  · cases done
  · cases done
  · cases done
  · cases done
  · exact later (by simp) done
  · exact later (by simp) done

def Around.open_ (c : CacheDir) : Around c where
  cached := none
  exit := true
  lstat _ := some .dir
  there _ _ := rfl
  removes := true
  mkdirFails := none
  download := .kept
  renames := true

theorem fetchOne_open {slug version : Text} (current : trimSpace version ≠ []) {name : Name}
    (file : name = "bin.tmp".toList ∨ name = "sha256".toList) :
    Change.creates ((join [c.text,slug]).step name) ∈ fetchOne c (Around.open_ c) slug version sig := by
  have differs : ¬ trimSpace [] = trimSpace version := fun same => current same.symm
  have all : fetchOne c (Around.open_ c) slug version sig =
      mkdirAll c (Around.open_ c) (join [c.text,slug]) false ++ install c (Around.open_ c) (join [c.text,slug]) sig := by
    simp [fetchOne,Around.open_,current,differs]
  rw [all]
  rcases file with rfl | rfl <;> simp [install,Around.open_]

/-- The slugs that a manifest makes the cache fetch stay inside. -/
def SlugsStayIn (c : CacheDir) (manifest : List (Text × ManifestEntry)) : Prop :=
  ∀ e ∈ manifest, e.2.available = true → trimSpace e.2.version ≠ [] → StaysIn c (e.1.splitOn '/')

theorem changesInside_iff :
    ChangesInside c manifest ↔ SlugsStayIn c manifest := by
  constructor
  · rintro inside ⟨slug,entry⟩ listed available current
    have below {name : Name} (file : name = "bin.tmp".toList ∨ name = "sha256".toList) :
        Below c.place ((join [c.text,slug]).step name) := by
      have done : Change.creates ((join [c.text,slug]).step name) ∈
          clientCache c (Around.open_ c) (fun _ => Around.open_ c) manifest := by
        refine mem_append_right _ (mem_flatMap.mpr ⟨(slug,entry),listed,?_⟩)
        grind [fetchOne_open]
      exact inside _ _ _ done _ mem_cons_self
    have first := below (.inl rfl)
    have second := below (.inr rfl)
    rw [step_proper _ (fileNames_proper _ (by simp [fileNames]))] at first second
    rw [← below_walk_iff,← join_slug]
    exact below_of_children (by decide) first second
  · intro stays legacy around change done p touched
    rcases mem_append.mp done with old | fetched
    · exact cleanup_inside old touched
    · obtain ⟨⟨slug,entry⟩,listed,one⟩ := mem_flatMap.mp fetched
      by_cases available : entry.available = true
      · simp only [available] at one
        by_cases current : trimSpace entry.version = []
        · simp [fetchOne,current] at one
        · exact fetchOne_inside (stays (slug,entry) listed available current) one touched
      · simp [available] at one

theorem confined_iff (c : CacheDir) :
    (∀ r, ReadsInside c r ↔ ∀ w ∈ requested r, StaysIn c (w.slug.splitOn '/' ++ [w.kind.fileName])) ∧
      ∀ manifest, ChangesInside c manifest ↔ SlugsStayIn c manifest :=
  ⟨readsInside_iff,changesInside_iff⟩

/-- `/client-..` is a clean path, and its file lies beside the cache directory; a manifest may
    list a slug that leads to any directory. -/
theorem slugs_escape :
    (¬ ∀ c r, ReadsInside c r) ∧ ¬ ∀ c manifest, ChangesInside c manifest := by
  constructor
  · intro inside
    have escaped := inside ⟨"/var/cache/updates".toList,by decide⟩ ⟨.get,"/client-..".toList⟩ (clean "/var/cache/bin".toList)
      (by decide)
    revert escaped
    decide
  · intro inside
    have stays := (changesInside_iff _).mp
      (inside ⟨"/var/cache/updates".toList,by decide⟩ [("../../../etc/cron.d".toList,⟨true,"2".toList,[],[]⟩)])
    have escaped := stays _ mem_cons_self rfl (by decide)
    revert escaped
    decide

end TunnelCat.UpdateCache
