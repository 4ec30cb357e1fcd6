import TunnelCat.Manifest
import TunnelCat.Runs

/-!
The client's `Discoverer` (`snc/core/discovery.go`): it applies manifests that it fetches from a control or
from navlink.net, that gossip hands to it, and that it kept on disk. Each is checked by itself; its time is
compared with nothing.
-/
namespace TunnelCat.Discovery
open Manifest Runs List

structure Applied where
  ts : Int64
  verified : Verified

inductive Source
  | none
  | cached
  | fresh

/-- The state of the client: what it was set up with, the manifest in force and where it
    is from, the two flags of the process, and the file on disk. -/
structure Discoverer (S : Signatures Json) where
  pubkey : Option S.Public
  cacheFile : Bool
  navlinkSet : Bool
  serverURLs : List String
  applied : Option Applied
  manifestSource : Source
  ipv6TunnelDisabled : Bool
  torrentManifestAllowed : Bool
  cache : Option Body

inductive Call
  | readFile
  | mkdirAll
  | encrypt
  | writeFile

/-- A round of fetching has a reply of each URL, the order in which they are asked, the
    URLs of the dialer pool, and the reply of navlink.net. -/
inductive Event
  | fetchAndApply (reply : String → Option Body) (shuffle : List String → List String) (extraURLs : List String)
      (navlink : Option Body)
  | injectRaw (data : Body)
  | loadCached

structure Input where
  fails : Call → Bool
  event : Event

inductive Shown
  | applied (ts : Int64)
  | refused (e : VerifyError)
  | nothing

def Shown.ts : Shown → Option Int
  | .applied ts => some ts.toInt
  | _ => none

section
variable {S : Signatures Json}

def newDiscoverer (pubkey : Option S.Public) (serverURL : String) (cacheFile navlinkSet : Bool) (cache : Option Body) :
    Discoverer S :=
  ⟨pubkey,cacheFile,navlinkSet,[String.ofList (serverURL.toList.reverse.dropWhile (· = '/')).reverse],.none,.none,false,
    false,cache⟩

def manifestTS (doc : Json) : Int64 := (doc.field "ts" Codec.int64.decode 0).value

def check (d : Discoverer S) (data : Body) : Except VerifyError Applied :=
  match data.unmarshal with
  | none => .error .parse
  | some doc => (verify S d.pubkey doc).map (fun v => ⟨manifestTS doc,v⟩)

def serverURL (addr : String) : String := if "http".toList.isPrefixOf addr.toList then addr else "https://" ++ addr

def setControls (d : Discoverer S) (a : Applied) : Discoverer S :=
  let urls := a.verified.addrs.map serverURL
  { d with
    applied := some a
    serverURLs := if urls.isEmpty then d.serverURLs else urls
    ipv6TunnelDisabled := (a.verified.ipv6Enabled.map (!·)).getD d.ipv6TunnelDisabled
    torrentManifestAllowed := a.verified.torrentEnabled.getD d.torrentManifestAllowed }

def persist (d : Discoverer S) (i : Input) (data : Body) : Discoverer S :=
  if !d.cacheFile || i.fails .mkdirAll || i.fails .encrypt || i.fails .writeFile then d else { d with cache := some data }

def injectRaw (d : Discoverer S) (i : Input) (data : Body) : Discoverer S × Shown :=
  match check d data with
  | .error e => (d,.refused e)
  | .ok a => (persist (setControls d a) i data,.applied a.ts)

def loadCached (d : Discoverer S) (i : Input) : Discoverer S × Shown :=
  match if !d.cacheFile || i.fails .readFile then none else d.cache with
  | none => (d,.nothing)
  | some data =>
    match check d data with
    | .error e => (d,.refused e)
    | .ok a => ({ setControls d a with manifestSource := .cached },.applied a.ts)

def candidates (d : Discoverer S) (extraURLs : List String) : List String :=
  extraURLs.foldl (fun urls u => if u ≠ "" && !urls.contains u then urls ++ [u] else urls) d.serverURLs

def fetch (d : Discoverer S) (reply : String → Option Body) (shuffle : List String → List String)
    (extraURLs : List String) : Option Body :=
  (shuffle (candidates d extraURLs)).findSome? reply

def fetchAndApply (d : Discoverer S) (i : Input) (reply : String → Option Body) (shuffle : List String → List String)
    (extraURLs : List String) (navlink : Option Body) : Discoverer S × Shown :=
  match fetch d reply shuffle extraURLs with
  | some data =>
    match check d data with
    | .error e => (d,.refused e)
    | .ok a => (persist { setControls d a with manifestSource := .fresh } i data,.applied a.ts)
  | none =>
    match if d.navlinkSet then navlink else none with
    | none => (d,.nothing)
    | some data =>
      match injectRaw d i data with
      | (d, .applied ts) => ({ d with manifestSource := .fresh },.applied ts)
      | other => other

def step (d : Discoverer S) (i : Input) : Discoverer S × Shown :=
  match i.event with
  | .fetchAndApply reply shuffle extraURLs navlink => fetchAndApply d i reply shuffle extraURLs navlink
  | .injectRaw data => injectRaw d i data
  | .loadCached => loadCached d i

def offered (d : Discoverer S) (i : Input) : Option Body :=
  match i.event with
  | .fetchAndApply reply shuffle extraURLs navlink =>
    (fetch d reply shuffle extraURLs).or (if d.navlinkSet then navlink else none)
  | .injectRaw data => some data
  | .loadCached => if !d.cacheFile || i.fails .readFile then none else d.cache

def manifest (d : Discoverer S) (i : Input) : Option Applied := (offered d i).bind (fun data => (check d data).toOption)

/-- No valid manifest is offered that is older than the one in force. -/
def NotOlder (d : Discoverer S) (i : Input) : Prop :=
  ∀ a, manifest d i = some a → ∀ c, d.applied = some c → c.ts.toInt ≤ a.ts.toInt

theorem persist_applied (d : Discoverer S) (i : Input) (data : Body) : (persist d i data).applied = d.applied := by
  unfold persist
  split_ifs <;> rfl

theorem injectRaw_applies (d : Discoverer S) (i : Input) (data : Body) :
    (injectRaw d i data).1.applied = (check d data).toOption.or d.applied ∧
      (injectRaw d i data).2.ts = (check d data).toOption.map (fun a => a.ts.toInt) := by
  unfold injectRaw
  cases check d data with
  | error e => exact ⟨rfl,rfl⟩
  | ok a => exact ⟨persist_applied _ i data,rfl⟩

theorem step_applies (d : Discoverer S) (i : Input) :
    (step d i).1.applied = (manifest d i).or d.applied ∧
      (step d i).2.ts = (manifest d i).map (fun a => a.ts.toInt) := by
  unfold step manifest offered
  cases i.event with
  | injectRaw data => exact injectRaw_applies d i data
  | loadCached =>
    unfold loadCached
    cases (if !d.cacheFile || i.fails .readFile then none else d.cache) with
    | none => exact ⟨rfl,rfl⟩
    | some data =>
      simp only [Option.bind_some]
      cases check d data <;> exact ⟨rfl,rfl⟩
  | fetchAndApply reply shuffle extraURLs navlink =>
    unfold fetchAndApply
    dsimp only
    cases fetch d reply shuffle extraURLs with
    | some data =>
      simp only [Option.some_or,Option.bind_some]
      cases check d data with
      | error e => exact ⟨rfl,rfl⟩
      | ok a => exact ⟨persist_applied _ i data,rfl⟩
    | none =>
      cases (if d.navlinkSet then navlink else none) with
      | none => exact ⟨rfl,rfl⟩
      | some data =>
        grind [injectRaw_applies]

def times (d : Discoverer S) (inputs : List Input) : List Int := (trace step d inputs).filterMap Shown.ts

theorem along_notOlder_iff (d : Discoverer S) (inputs : List Input) :
    Along step NotOlder d inputs ↔
      ((d.applied.map (fun a => a.ts.toInt)).toList ++ times d inputs).Pairwise (· ≤ ·) := by
  induction inputs generalizing d with
  | nil => cases d.applied <;> simp [Along,times]
  | cons i rest ih =>
    obtain ⟨applied,ts⟩ := step_applies d i
    simp only [Along,ih,NotOlder,times,trace_cons,filterMap_cons,ts,applied]
    cases manifest d i with
    | none => simp
    | some a =>
      cases d.applied with
      | none => simp
      | some c =>
        simp only [Option.some_or,Option.map_some,Option.toList_some,cons_append,nil_append,
          pairwise_cons,Option.some.injEq,forall_eq',mem_cons,forall_eq_or_imp]
        grind

/-- The times of the manifests that the client applies never go back exactly when it is
    offered no valid manifest that is older than the one in force. -/
theorem applied_sorted_iff (pubkey : Option S.Public) (url : String) (cacheFile navlinkSet : Bool) (cache : Option Body)
    (inputs : List Input) :
    (times (newDiscoverer pubkey url cacheFile navlinkSet cache) inputs).Pairwise (· ≤ ·) ↔
      Along step NotOlder (newDiscoverer pubkey url cacheFile navlinkSet cache) inputs :=
  (along_notOlder_iff (newDiscoverer pubkey url cacheFile navlinkSet cache) inputs).symm

theorem injectRaw_pubkey (d : Discoverer S) (i : Input) (data : Body) : (injectRaw d i data).1.pubkey = d.pubkey := by
  unfold injectRaw persist
  cases check d data with
  | error e => rfl
  | ok a =>
    dsimp only
    split_ifs <;> rfl

theorem check_signList {d : Discoverer S} {priv : S.Secret} (key : d.pubkey = some (S.pub priv)) (now : Int64)
    {nodes : List Nodes.Node} (node : ∃ n ∈ nodes, n.addr ≠ "") (regionFn : String → String) :
    ∃ v, check d (.document (signList S priv now "manifest" nodes regionFn)) = .ok ⟨now,v⟩ := by
  have accepted : Accepted S d.pubkey (signList S priv now "manifest" nodes regionFn) := by
    rw [key,signList,accepted_iff (SignedManifest.unmarshal_list _),
      signatureOK_iff (l := unsignedList now "manifest" nodes regionFn) rfl rfl rfl rfl rfl]
    grind [entryOf,mem_map_of_mem,SignedManifest.ofList,signedList,unsignedList]
  obtain ⟨v,verified⟩ := accepted
  have ts := Json.always_read SignedList.fields_distinct 1 rfl (signedList S priv now "manifest" nodes regionFn)
  have time : manifestTS (signList S priv now "manifest" nodes regionFn) = now := congrArg Json.Decoded.value ts
  refine ⟨v,?_⟩
  simp only [check,Body.unmarshal,verified,Except.map,time]

end

noncomputable def manifestOf (second : Int64) : Input where
  fails _ := false
  event := .injectRaw (.document (signList (Signatures.symbolic Json) (0 : Nat) second "manifest"
    (sampleHandler.db.nodes) (fun _ => "")))

/-- Gossip replays the manifest of an earlier second, and the client applies it. -/
theorem older_manifest_applied :
    ¬ ∀ (S : Signatures Json) (priv : S.Secret) (url : String) (cacheFile navlinkSet : Bool) (cache : Option Body)
        (inputs : List Input),
      (times (newDiscoverer (some (S.pub priv)) url cacheFile navlinkSet cache) inputs).Pairwise (· ≤ ·) := by
  intro sorted
  have applied : ∀ (d : Discoverer (Signatures.symbolic Json)) (second : Int64),
      d.pubkey = some ((Signatures.symbolic Json).pub (0 : Nat)) →
      (step d (manifestOf second)).2.ts = some second.toInt := by
    intro d second key
    have node : ∃ n ∈ sampleHandler.db.nodes, n.addr ≠ "" := ⟨_,mem_singleton.mpr rfl,by decide⟩
    obtain ⟨v,valid⟩ := check_signList key second node (fun _ => "")
    rw [(step_applies d (manifestOf second)).2]
    simp [manifest,offered,manifestOf,valid,Except.toOption]
  let client := newDiscoverer (some ((Signatures.symbolic Json).pub (0 : Nat))) "" false false none
  have first := applied client 2 rfl
  have second := applied (step client (manifestOf 2)).1 1 (injectRaw_pubkey client (manifestOf 2) _)
  have back := sorted (Signatures.symbolic Json) (0 : Nat) "" false false none [manifestOf 2,manifestOf 1]
  rw [times,trace_cons,trace_cons,filterMap_cons_some first,filterMap_cons_some second] at back
  exact absurd ((pairwise_cons.mp back).1 _ mem_cons_self) (by decide)

end TunnelCat.Discovery
