import TunnelCat.Bytes
import TunnelCat.ByteStrings
import TunnelCat.Disk
import TunnelCat.Goroutines
import TunnelCat.Runs

/-!
Client updates that are uploaded to an arbiter (`snc-arbiter/admin_downloads.go`, `update_sign.go`), with the
check of their signatures by a client (`snc/core/update_sig.go`). A goroutine installs each upload file by
file, version and signature only if the upload names a version. So an upload without one leaves the signature
of another binary, and two installs of one type mix their files.
-/
namespace TunnelCat.Publish
open Bytes ByteStrings Goroutines Runs Trim List

def line (s : GoString) : GoString := s ++ [10]

/-! ### Signatures -/

structure Crypto where
  sha256 : List UInt8 → List UInt8
  PrivateKey : Type
  pub : PrivateKey → List UInt8
  sign : PrivateKey → List UInt8 → List UInt8
  verify : List UInt8 → List UInt8 → List UInt8 → Bool
  pub_length : ∀ key, (pub key).length = 32
  sign_length : ∀ key message, (sign key message).length = 64
  verify_sign : ∀ key message, verify (pub key) message (sign key message) = true

variable (c : Crypto)

variable (pub data : List UInt8) (disk : Disk GoString)

def hexHash : GoString := ascii (hexEncode (c.sha256 data))

def updateSigMessage (slug version sha256Hex : GoString) : List UInt8 := slug ++ ascii "|" ++ version ++ ascii "|" ++ sha256Hex

def signUpdate (priv : c.PrivateKey) (slug version sha256Hex : GoString) : GoString :=
  ascii (base64Encode (c.sign priv (updateSigMessage slug version sha256Hex)))

def verifyUpdateSig (slug version sha256Hex sigB64 : GoString) : Bool :=
  if pub.length ≠ 32 then false
  else
    match base64Decode (String.ofList (sigB64.map (fun b => Char.ofNat b.toNat))) with
    | none => false
    | some sig => if sig.length ≠ 64 then false else c.verify pub (updateSigMessage slug version sha256Hex) sig

/-! ### Stored files -/

inductive BinaryType
  | windows
  | windowsInstaller
  | android
  | linux
  | macos
  | proektAndroid
  | lisinderAndroid
deriving DecidableEq

def BinaryType.slug : BinaryType → GoString
  | .windows => ascii "windows"
  | .windowsInstaller => ascii "windows-installer"
  | .android => ascii "android"
  | .linux => ascii "linux"
  | .macos => ascii "macos"
  | .proektAndroid => ascii "proekt-android"
  | .lisinderAndroid => ascii "lisinder-android"

def BinaryType.canonicalName : BinaryType → GoString
  | .windows => ascii "shortnerdcat.zip"
  | .windowsInstaller => ascii "shortnerdcat-installer.zip"
  | .android => ascii "shortnerdcat.apk"
  | .linux => ascii "shortnerdcat.deb"
  | .macos => ascii "shortnerdcat.dmg"
  | .proektAndroid => ascii "proekt.apk"
  | .lisinderAndroid => ascii "lisinder.apk"

def BinaryType.all : List BinaryType := [.windows,.windowsInstaller,.android,.linux,.macos,.proektAndroid,.lisinderAndroid]

def clientBinaryTypes (name : GoString) : Option BinaryType := BinaryType.all.find? (fun t => t.slug = name)

inductive Sidecar
  | sha256
  | version
  | sig
deriving DecidableEq

def Sidecar.ending : Sidecar → GoString
  | .sha256 => ascii ".sha256"
  | .version => ascii ".version"
  | .sig => ascii ".sig"

variable (t : BinaryType) (s : Sidecar)

def BinaryType.beside : GoString := t.canonicalName ++ s.ending

def tmpName (n : Nat) : GoString := ascii "upload-" ++ ascii (Nat.repr n) ++ ascii ".tmp"

structure ClientBinaryInfo where
  hash : GoString
  size : Nat
  version : GoString
  sig : GoString

def ClientBinaryInfo.verifies (slug : GoString) (info : ClientBinaryInfo) : Bool :=
  verifyUpdateSig c pub slug info.version info.hash info.sig

def readClientBinaryInfo (filename : GoString) : ClientBinaryInfo :=
  match disk.read filename with
  | none => ⟨[],0,[],[]⟩
  | some data =>
    let read (s : Sidecar) := trimSpace ((disk.read (filename ++ s.ending)).getD [])
    ⟨read .sha256,data.length,read .version,read .sig⟩

/-! ### Uploads -/

structure Handler where
  uploadKey : GoString
  updateDir : Bool
  updateSigningKey : Option c.PrivateKey
  notifier : Bool
  peerArbiters : List GoString

structure Form where
  binaryType : GoString
  version : GoString
  file : Option (List UInt8)

structure Upload where
  authorization : GoString
  acceptsHtml : Bool
  noReplicate : GoString
  form : Option Form

/-- How the calls of the handler go: the number that the temporary file gets, if it is created,
    how much of the upload is copied if that fails, and whether a removal fails. -/
structure Around where
  tmp : Option Nat
  copied : Option Nat
  removeFails : Bool

def Around.remove (a : Around) (disk : Disk GoString) (name : GoString) : Disk GoString :=
  if a.removeFails then disk else disk.remove name

inductive Flash
  | noDirectory
  | malformed
  | unknownType (name : GoString)
  | noFile
  | noTemp
  | notWritten
  | empty

def Flash.text (quoted : GoString → String) : Flash → String
  | .noDirectory => "Update directory not configured (--update-dir flag missing)."
  | .malformed => "Request too large or malformed."
  | .unknownType name => "Unknown binary type " ++ quoted name ++ "."
  | .noFile => "No file received."
  | .noTemp => "Server error: could not create temp file."
  | .notWritten => "Upload failed: could not write file."
  | .empty => "Uploaded file is empty."

inductive Reply
  | unauthorized
  | page (flash : Flash)
  | json (size : Nat) (sha256 : GoString)
  | seeOther

structure Job where
  tmp : GoString
  binaryType : BinaryType
  version : GoString
  hexHash : GoString
  isReplica : Bool
  named : ∃ n, tmp = tmpName n
  trimmed : ∃ s, version = trimSpace s

structure Handled where
  disk : Disk GoString
  reply : Reply
  job : Option Job

section
variable {c} (h : Handler c)

variable (disk : Disk GoString) (r : Upload)

def checkUploadKey : Bool := h.uploadKey = [] || r.authorization = ascii "Bearer " ++ h.uploadKey

def receive (a : Around) (t : BinaryType) (version data : GoString) (n : Nat) : Handled :=
  match a.copied with
  | some k => ⟨a.remove (disk.writeFile (tmpName n) (data.take k)) (tmpName n),.page .notWritten,none⟩
  | none =>
    if data = [] then ⟨a.remove (disk.writeFile (tmpName n) []) (tmpName n),.page .empty,none⟩
    else
      ⟨disk.writeFile (tmpName n) data,
        if r.authorization ≠ [] ∧ r.acceptsHtml = false then .json data.length (hexHash c data) else .seeOther,
        some ⟨tmpName n,t,trimSpace version,hexHash c data,r.noReplicate = ascii "1",⟨n,rfl⟩,⟨version,rfl⟩⟩⟩

def adminDownloadsUpload (a : Around) : Handled :=
  if checkUploadKey h r = false then ⟨disk,.unauthorized,none⟩
  else if h.updateDir = false then ⟨disk,.page .noDirectory,none⟩
  else
    match r.form with
    | none => ⟨disk,.page .malformed,none⟩
    | some form =>
      match clientBinaryTypes form.binaryType with
      | none => ⟨disk,.page (.unknownType form.binaryType),none⟩
      | some t =>
        match form.file with
        | none => ⟨disk,.page .noFile,none⟩
        | some data =>
          -- a name that is taken is not used
          match a.tmp.filter (fun n => disk.read (tmpName n) = none) with
          | none => ⟨disk,.page .noTemp,none⟩
          | some n => receive (c := c) disk r a t form.version data n

/-! ### Installs -/

/-- The disk, and the types of which an install has met an error. The code does not keep those. -/
structure State where
  disk : Disk GoString
  failed : List BinaryType

/-- Where an install stands. `os.WriteFile` empties its file first and writes to it then. -/
inductive Point
  | renames (job : Job)
  | opens (job : Job) (s : Sidecar)
  | writes (job : Job) (s : Sidecar) (node : Nat)
  | notifies (job : Job)
  | replicates (job : Job) (peers : List GoString)
  | removes (job : Job)

def Point.job : Point → Job
  | .renames job | .opens job _ | .writes job _ _ | .notifies job | .replicates job _ | .removes job => job

/-- How the calls of a step go: whether they fail, and how much a failed write has written. -/
structure Outcome where
  fails : Bool
  written : Nat

/-- What can be seen of the arbiter: its replies, and what it sends to the nodes and to the other
    arbiters. -/
inductive Shown
  | replied (reply : Reply)
  | notified
  | pushed (peer slug version : GoString) (data : List UInt8)

variable (s : State)

def goesTo (t : Point) : Ran State Point Shown := ⟨s,some t,[],[]⟩

def fails (job : Job) : State := { s with failed := job.binaryType :: s.failed }

def contents (key : Option c.PrivateKey) (job : Job) : Sidecar → GoString
  | .sha256 => line job.hexHash
  | .version => line job.version
  | .sig => line ((key.map (fun priv => signUpdate c priv job.binaryType.slug job.version job.hexHash)).getD [])

def next (job : Job) : Sidecar → Point
  | .sha256 => if job.version ≠ [] then .opens job .version else .notifies job
  | .version => if h.updateSigningKey.isSome then .opens job .sig else .notifies job
  | .sig => .notifies job

def act (o : Outcome) (s : State) : Point → Ran State Point Shown
  | .renames job =>
    match if o.fails then none else s.disk.rename (job.tmp) job.binaryType.canonicalName with
    | none => goesTo (fails s job) (.removes job)
    | some disk => goesTo { s with disk := disk } (.opens job .sha256)
  | .opens job part =>
    if o.fails then goesTo (fails s job) (next h job part)
    else
      let (disk, node) := s.disk.openTrunc (job.binaryType.beside part)
      goesTo { s with disk := disk } (.writes job part node)
  | .writes job part node =>
    let bytes := contents h.updateSigningKey job part
    if o.fails then goesTo { fails s job with disk := s.disk.write node 0 (bytes.take o.written) } (next h job part)
    else goesTo { s with disk := s.disk.write node 0 bytes } (next h job part)
  | .notifies job =>
    ⟨s,some (if job.isReplica then .removes job else .replicates job h.peerArbiters),[],if h.notifier then [.notified] else []⟩
  | .replicates job [] => goesTo s (.removes job)
  | .replicates job (peer :: peers) =>
    match if o.fails then none else s.disk.read job.binaryType.canonicalName with
    | none => goesTo s (.replicates job peers)
    | some data => ⟨s,some (.replicates job peers),[],[.pushed peer job.binaryType.slug job.version data]⟩
  | .removes job => ⟨{ s with disk := if o.fails then s.disk else s.disk.remove (job.tmp) },none,[],[]⟩

/-! ### Runs -/

abbrev Arbiter := Goroutines.Pool State Point

inductive Input
  | uploads (r : Upload) (a : Around)
  | runs (k : Nat) (o : Outcome)

def step (p : Arbiter) : Input → Arbiter × List Shown
  | .uploads r a =>
    let handled := adminDownloadsUpload h p.state.disk r a
    (Pool.start ⟨{ p.state with disk := handled.disk },p.running⟩ (handled.job.toList.map .renames),[.replied handled.reply])
  | .runs k o => runAt (act h o) p k

def fresh : Arbiter := ⟨⟨disk,[]⟩,[]⟩

end

/-- The hash that is stored for a type is that of its binary, and a signature that is stored is
    one for the stored version and that hash. -/
structure Consistent (pub : List UInt8) (disk : Disk GoString) (t : BinaryType) : Prop where
  hash : ∀ data, disk.read t.canonicalName = some data → (readClientBinaryInfo disk t.canonicalName).hash = hexHash c data
  sig : disk.read (t.beside .sig) ≠ none → disk.read t.canonicalName ≠ none ∧
    (readClientBinaryInfo disk t.canonicalName).verifies c pub t.slug = true

/-- An upload that is accepted comes while none of its type is installed, and its temporary file
    has a name that no install has used which still runs. If it has no version, then no signature
    is stored for its type, or its hash is the stored one. -/
def InTurn {c : Crypto} (h : Handler c) (p : Arbiter) : Input → Prop
  | .uploads r a => ∀ job ∈ (adminDownloadsUpload h p.state.disk r a).job,
      (∀ point ∈ p.running, point.job.binaryType ≠ job.binaryType ∧ point.job.tmp ≠ job.tmp) ∧
      (job.version = [] → p.state.disk.read (job.binaryType.beside .sig) = none ∨
        (readClientBinaryInfo p.state.disk job.binaryType.canonicalName).hash = job.hexHash)
  | _ => True

/-! ### Names -/

def BinaryType.Stores (q : GoString) : Prop := q = t.canonicalName ∨ ∃ s, q = t.beside s

theorem mem_all : t ∈ BinaryType.all := by
  cases t <;> decide

variable {t' : BinaryType} {t}

theorem canonicalName_inj (same : t.canonicalName = t'.canonicalName) : t = t' := by
  have apart : ∀ t ∈ BinaryType.all, ∀ t' ∈ BinaryType.all, t.canonicalName = t'.canonicalName → t = t' := by decide
  exact apart t (mem_all t) t' (mem_all t') same

theorem mem_sidecars : s ∈ [Sidecar.sha256,.version,.sig] := by
  cases s <;> decide

theorem ending_inj {q q' : GoString} {s s' : Sidecar} (same : q ++ s.ending = q' ++ s'.ending) : s = s' := by
  have apart : ∀ s ∈ [Sidecar.sha256,.version,.sig], ∀ s' ∈ [Sidecar.sha256,.version,.sig],
      s.ending ≠ [] ∧ (s.ending.getLast? = s'.ending.getLast? → s = s') := by decide
  grind [mem_sidecars,getLast?_append_of_ne_nil]

theorem beside_inj {s s' : Sidecar} (same : t.beside s = t'.beside s') : t = t' ∧ s = s' := by
  obtain rfl := ending_inj same
  exact ⟨canonicalName_inj (append_cancel_right same),rfl⟩

theorem canonicalName_ne_beside (t t' : BinaryType) (s : Sidecar) : t.canonicalName ≠ t'.beside s := by
  have ends : ∀ t ∈ BinaryType.all, ∀ s ∈ [Sidecar.sha256,.version,.sig], ¬ s.ending <:+ t.canonicalName := by decide
  intro same
  refine ends t (mem_all t) s (mem_sidecars s) ?_
  rw [same]
  exact suffix_append _ _

theorem stores_unique {q : GoString} (first : t.Stores q) (second : t'.Stores q) : t = t' := by
  rcases first with rfl | ⟨s,rfl⟩
  · rcases second with same | ⟨s,same⟩
    · exact canonicalName_inj same
    · exact absurd same (canonicalName_ne_beside t t' s)
  · rcases second with same | ⟨s',same⟩
    · exact absurd same.symm (canonicalName_ne_beside t' t s)
    · exact (beside_inj same).1

theorem tmpName_not_stored (t : BinaryType) (n : Nat) : ¬ t.Stores (tmpName n) := by
  have names : ∀ t ∈ BinaryType.all, t.canonicalName.head? ≠ some 117 ∧
      ∀ s ∈ [Sidecar.sha256,.version,.sig], (t.beside s).head? ≠ some 117 := by decide
  obtain ⟨bin,sidecars⟩ := names t (mem_all t)
  have first : (tmpName n).head? = some 117 := rfl
  rintro (same | ⟨s,same⟩)
  · exact bin (same ▸ first)
  · exact sidecars s (mem_sidecars s) (same ▸ first)

theorem Job.tmp_not_stored (job : Job) (t : BinaryType) : ¬ t.Stores job.tmp := by
  grind [job.named,tmpName_not_stored]

/-! ### Texts that are read back -/

theorem trimSpace_line {s : GoString} (trimmed : Trimmed spaces s) : trimSpace (line s) = s :=
  trim_concat spaces_filled (by decide) (by decide) trimmed

theorem Job.version_trimmed (job : Job) : Trimmed spaces job.version := by
  obtain ⟨s,same⟩ := job.trimmed
  rw [same]
  exact trim_trimmed spaces_filled s

theorem hex_printable : ∀ x ∈ hexHash c data, 33 ≤ x ∧ x < 128 := by
  have digits : ∀ n : Fin 16, 33 ≤ UInt8.ofNat (hexDigit n).toNat ∧ UInt8.ofNat (hexDigit n).toNat < 128 := by decide
  intro x inside
  simp only [hexHash,ascii,hexEncode,String.toList_ofList,mem_map,mem_flatMap,mem_cons,not_mem_nil,
    or_false] at inside
  obtain ⟨d,⟨b,-,rfl | rfl⟩,rfl⟩ := inside
  · have bound := b.toNat_lt
    exact digits ⟨b.toNat / 16,by omega⟩
  · exact digits ⟨b.toNat % 16,by omega⟩

theorem base64_printable (bytes : List UInt8) : ∀ x ∈ ascii (base64Encode bytes), 33 ≤ x ∧ x < 128 := by
  intro x inside
  obtain ⟨d,member,rfl⟩ := mem_map.mp inside
  grind [base64Encode_printable,UInt8.toNat_ofNat_of_lt',UInt8.le_iff_toNat_le,UInt8.lt_iff_toNat_lt]

theorem text_ascii {s : String} (small : ∀ d ∈ s.toList, d.toNat < 256) :
    String.ofList ((ascii s).map (fun b => Char.ofNat b.toNat)) = s := by
  have same : (ascii s).map (fun b => Char.ofNat b.toNat) = s.toList := by
    rw [ascii,map_map]
    refine (map_congr_left ?_).trans (map_id _)
    intro d member
    simp [Nat.mod_eq_of_lt (small d member)]
  rw [same,String.ofList_toList]

theorem verify_signUpdate (key : c.PrivateKey) (slug version hash : GoString) :
    verifyUpdateSig c (c.pub key) slug version hash (signUpdate c key slug version hash) = true := by
  have small : ∀ d ∈ (base64Encode (c.sign key (updateSigMessage slug version hash))).toList, d.toNat < 256 := by
    grind [base64Encode_printable]
  simp [verifyUpdateSig,signUpdate,c.pub_length,text_ascii small,base64Decode_encode,c.sign_length,c.verify_sign]

/-! ### What an install knows -/

def stored (t : BinaryType) (s : Sidecar) : GoString := trimSpace ((disk.read (t.beside s)).getD [])

def Signed (t : BinaryType) (hash : GoString) : Prop :=
  disk.read (t.beside .sig) ≠ none → verifyUpdateSig c pub t.slug (stored disk t .version) hash (stored disk t .sig) = true

def Arrived (job : Job) : Prop :=
  ∃ data, disk.read job.binaryType.canonicalName = some data ∧ hexHash c data = job.hexHash

def Listed (job : Job) : Prop := disk.read (job.binaryType.beside .sha256) = some (line job.hexHash)

def Before (job : Job) : Sidecar → Prop
  | .sha256 => job.version = [] → Signed c pub disk job.binaryType job.hexHash
  | .version => Listed disk job
  | .sig => Listed disk job ∧ disk.read (job.binaryType.beside .version) = some (line job.version)

def At : Point → Prop
  | .renames job => (∃ data, disk.read job.tmp = some data ∧ hexHash c data = job.hexHash) ∧ Before c pub disk job .sha256
  | .opens job s => Arrived c disk job ∧ Before c pub disk job s
  | .writes job s node => Arrived c disk job ∧ Before c pub disk job s ∧ disk.data node = []
  | .notifies job | .replicates job _ | .removes job =>
    Arrived c disk job ∧ Listed disk job ∧ Signed c pub disk job.binaryType job.hexHash

def Holding : Point → Prop
  | .writes job s node => disk.names.lookup (job.binaryType.beside s) = some node
  | _ => True

section
variable {c} {pub : List UInt8} {disk disk' : Disk GoString} {t : BinaryType} {job : Job}

theorem info_of_read {data : List UInt8} (there : disk.read t.canonicalName = some data) :
    readClientBinaryInfo disk t.canonicalName = ⟨stored disk t .sha256,data.length,stored disk t .version,stored disk t .sig⟩ := by
  simp only [readClientBinaryInfo,there]
  rfl

theorem consistent_of_installed (arrived : Arrived c disk job) (listed : Listed disk job)
    (signed : Signed c pub disk job.binaryType job.hexHash) : Consistent c pub disk job.binaryType := by
  obtain ⟨data,there,hashed⟩ := arrived
  have hash : stored disk job.binaryType .sha256 = job.hexHash := by
    rw [stored,listed,← hashed]
    exact trimSpace_line (trimmed_of_printable (hex_printable c data))
  constructor
  · intro data' there'
    obtain rfl := Option.some.inj (there.symm.trans there')
    rw [info_of_read there,hashed]
    exact hash
  · intro found
    refine ⟨by simp [there],?_⟩
    rw [info_of_read there,hash]
    exact signed found

variable {hash : GoString}

theorem signed_of_consistent (consistent : Consistent c pub disk t)
    (fits : disk.read (t.beside .sig) = none ∨ (readClientBinaryInfo disk t.canonicalName).hash = hash) :
    Signed c pub disk t hash := by
  intro found
  rcases fits with absent | same
  · exact absurd absent found
  · obtain ⟨there,verified⟩ := consistent.sig found
    obtain ⟨data,read⟩ := Option.ne_none_iff_exists'.mp there
    rw [ClientBinaryInfo.verifies,same,info_of_read read] at verified
    exact verified

/-! ### Other files -/

theorem Signed.of_same (signed : Signed c pub disk t hash)
    (version : disk'.read (t.beside .version) = disk.read (t.beside .version))
    (sig : disk'.read (t.beside .sig) = disk.read (t.beside .sig)) : Signed c pub disk' t hash := by
  simpa only [Signed,stored,version,sig] using signed

theorem Arrived.of_same (arrived : Arrived c disk job)
    (same : disk'.read job.binaryType.canonicalName = disk.read job.binaryType.canonicalName) : Arrived c disk' job := by
  obtain ⟨data,there,hashed⟩ := arrived
  exact ⟨data,same.trans there,hashed⟩

theorem Before.of_same {s : Sidecar} (before : Before c pub disk job s)
    (same : ∀ s', s' ≠ s → disk'.read (job.binaryType.beside s') = disk.read (job.binaryType.beside s')) :
    Before c pub disk' job s := by
  cases s with
  | sha256 =>
    intro none_
    exact (before none_).of_same (same .version (by decide)) (same .sig (by decide))
  | version => exact (same .sha256 (by decide)).trans before
  | sig => exact ⟨(same .sha256 (by decide)).trans before.1,(same .version (by decide)).trans before.2⟩

theorem Consistent.of_same (consistent : Consistent c pub disk t) (same : ∀ q, t.Stores q → disk'.read q = disk.read q) :
    Consistent c pub disk' t := by
  have info : readClientBinaryInfo disk' t.canonicalName = readClientBinaryInfo disk t.canonicalName := by
    have bin := same _ (.inl rfl)
    have sidecar (s : Sidecar) : disk'.read (t.canonicalName ++ s.ending) = disk.read (t.canonicalName ++ s.ending) :=
      same _ (.inr ⟨s,rfl⟩)
    simp only [readClientBinaryInfo,bin,sidecar]
  constructor
  · intro data there
    rw [info]
    exact consistent.hash data ((same _ (.inl rfl)).symm.trans there)
  · intro found
    rw [same _ (.inr ⟨.sig,rfl⟩)] at found
    rw [info,same _ (.inl rfl)]
    exact consistent.sig found

end

/-! ### One step of an install -/

inductive Late (job : Job) : Point → Prop
  | notifies : Late job (.notifies job)
  | replicates (peers : List GoString) : Late job (.replicates job peers)
  | removes : Late job (.removes job)

inductive Moves {c : Crypto} (h : Handler c) (s : State) : Point → State → Option Point → Prop
  | renameFailed (job : Job) : Moves h s (.renames job) (fails s job) (some (.removes job))
  | renamed (job : Job) {disk : Disk GoString} (renamed : s.disk.rename job.tmp job.binaryType.canonicalName = some disk) :
      Moves h s (.renames job) { s with disk := disk } (some (.opens job .sha256))
  | openFailed (job : Job) (part : Sidecar) : Moves h s (.opens job part) (fails s job) (some (next h job part))
  | opened (job : Job) (part : Sidecar) :
      Moves h s (.opens job part) { s with disk := (s.disk.openTrunc (job.binaryType.beside part)).1 }
        (some (.writes job part (s.disk.openTrunc (job.binaryType.beside part)).2))
  | writeFailed (job : Job) (part : Sidecar) (node : Nat) (bytes : List UInt8) :
      Moves h s (.writes job part node) { fails s job with disk := s.disk.write node 0 bytes } (some (next h job part))
  | wrote (job : Job) (part : Sidecar) (node : Nat) :
      Moves h s (.writes job part node) { s with disk := s.disk.write node 0 (contents h.updateSigningKey job part) }
        (some (next h job part))
  | passes {job : Job} {point point' : Point} (late : Late job point) (later : Late job point') : Moves h s point s (some point')
  | ends (job : Job) {disk : Disk GoString} (same : ∀ q, q ≠ job.tmp → s.disk.SameAt disk q) :
      Moves h s (.removes job) { s with disk := disk } none

section
variable {c} {h : Handler c} {key : c.PrivateKey} {s s' : State} {point : Point} {goes : Option Point}

theorem act_moves (h : Handler c) (o : Outcome) (s : State) (point : Point) :
    Moves h s point (act h o s point).state (act h o s point).next ∧ (act h o s point).started = [] := by
  cases point with
  | renames job =>
    simp only [act]
    cases o.fails with
    | true => exact ⟨.renameFailed job,rfl⟩
    | false =>
      cases renamed : s.disk.rename job.tmp job.binaryType.canonicalName with
      | none => exact ⟨.renameFailed job,rfl⟩
      | some disk => exact ⟨.renamed job renamed,rfl⟩
  | opens job part =>
    simp only [act]
    cases o.fails with
    | true => exact ⟨.openFailed job part,rfl⟩
    | false => exact ⟨.opened job part,rfl⟩
  | writes job part node =>
    simp only [act]
    cases o.fails with
    | true => exact ⟨.writeFailed job part node _,rfl⟩
    | false => exact ⟨.wrote job part node,rfl⟩
  | notifies job =>
    refine ⟨?_,rfl⟩
    simp only [act]
    cases job.isReplica with
    | true => exact .passes .notifies .removes
    | false => exact .passes .notifies (.replicates _)
  | replicates job peers =>
    cases peers with
    | nil => exact ⟨.passes (.replicates _) .removes,rfl⟩
    | cons peer rest =>
      simp only [act]
      split
      · exact ⟨.passes (.replicates _) (.replicates rest),rfl⟩
      · exact ⟨.passes (.replicates _) (.replicates rest),rfl⟩
  | removes job =>
    refine ⟨?_,rfl⟩
    simp only [act]
    cases o.fails with
    | true => exact .ends job (fun q _ => .refl _ q)
    | false => exact .ends job (fun q other => Disk.sameAt_remove other)

theorem next_job (h : Handler c) (job : Job) (part : Sidecar) : (next h job part).job = job := by
  cases part with
  | sha256 =>
    simp only [next]
    split <;> rfl
  | version =>
    simp only [next]
    split <;> rfl
  | sig => rfl

variable {job : Job} {disk : Disk GoString}

theorem Late.job_eq (late : Late job point) : point.job = job := by
  cases late <;> rfl

variable (moves : Moves h s point s' goes)
include moves

theorem Moves.job_eq {point' : Point} (next_ : goes = some point') :
    point'.job = point.job := by
  cases moves with
  | renameFailed job | renamed job | opened job => exact Option.some.inj next_ ▸ rfl
  | openFailed job part | writeFailed job part | wrote job part => exact Option.some.inj next_ ▸ next_job h job part
  | passes late later => exact Option.some.inj next_ ▸ later.job_eq.trans late.job_eq.symm
  | ends job => cases next_

theorem Moves.failed : s'.failed = s.failed ∨ s'.failed = point.job.binaryType :: s.failed := by
  cases moves with
  | renameFailed | openFailed | writeFailed => exact .inr rfl
  | renamed | opened | wrote | passes | ends => exact .inl rfl

theorem Moves.elsewhere {q : GoString} (holding : Holding s.disk point)
    (tmp : q ≠ point.job.tmp) (stranger : ¬ point.job.binaryType.Stores q) : s.disk.SameAt s'.disk q := by
  cases moves with
  | renameFailed | openFailed | passes => exact .refl _ q
  | renamed job renamed => exact (Disk.rename_same renamed).2 q tmp (fun same => stranger (.inl same))
  | opened job part => exact Disk.sameAt_openTrunc (fun same => stranger (.inr ⟨part,same⟩))
  | writeFailed job part node | wrote job part node =>
    exact Disk.sameAt_write holding (fun same => stranger (.inr ⟨part,same⟩)) 0 _
  | ends job same => exact same q tmp

theorem Moves.holding {point' : Point} (next_ : goes = some point') : Holding s'.disk point' := by
  have idle (disk : Disk GoString) (job : Job) (part : Sidecar) : Holding disk (next h job part) := by
    cases part with
    | sha256 =>
      simp only [next]
      split <;> trivial
    | version =>
      simp only [next]
      split <;> trivial
    | sig => trivial
  cases moves with
  | renameFailed job | renamed job =>
    obtain rfl := Option.some.inj next_
    trivial
  | openFailed job part | writeFailed job part | wrote job part =>
    obtain rfl := Option.some.inj next_
    exact idle _ job part
  | opened job part =>
    obtain rfl := Option.some.inj next_
    exact Disk.lookup_openTrunc
  | passes late later =>
    obtain rfl := Option.some.inj next_
    cases later <;> trivial
  | ends job => cases next_

omit moves

theorem signed_of_written
    (version : disk.read (job.binaryType.beside .version) = some (line job.version))
    (sig : disk.read (job.binaryType.beside .sig) =
      some (line (signUpdate c key job.binaryType.slug job.version job.hexHash))) :
    Signed c (c.pub key) disk job.binaryType job.hexHash := by
  intro _
  have versionText : stored disk job.binaryType .version = job.version := by
    rw [stored,version]
    exact trimSpace_line job.version_trimmed
  have sigText : stored disk job.binaryType .sig = signUpdate c key job.binaryType.slug job.version job.hexHash := by
    rw [stored,sig]
    exact trimSpace_line (trimmed_of_printable (base64_printable _))
  rw [versionText,sigText]
  exact verify_signUpdate c key _ _ _

theorem Late.at_iff {pub : List UInt8} (late : Late job point) :
    At c pub disk point ↔ Arrived c disk job ∧ Listed disk job ∧ Signed c pub disk job.binaryType job.hexHash := by
  cases late <;> rfl

theorem written_at {part : Sidecar} {node : Nat} (signs : h.updateSigningKey = some key)
    (there : disk.names.lookup (job.binaryType.beside part) = some node) (arrived : Arrived c disk job)
    (before : Before c (c.pub key) disk job part) (empty : disk.data node = []) :
    At c (c.pub key) (disk.write node 0 (contents h.updateSigningKey job part)) (next h job part) := by
  have bytes := Disk.read_write_empty there empty (contents h.updateSigningKey job part)
  have others : ∀ part', part' ≠ part → (disk.write node 0 (contents h.updateSigningKey job part)).read
      (job.binaryType.beside part') = disk.read (job.binaryType.beside part') := by
    grind [Disk.read_write,beside_inj]
  have arrived' := arrived.of_same (Disk.read_write there (canonicalName_ne_beside _ _ part) 0
    (contents h.updateSigningKey job part))
  cases part with
  | sha256 =>
    have listed : Listed _ job := bytes
    by_cases unversioned : job.version = []
    · simp only [next,unversioned]
      exact ⟨arrived',listed,(before unversioned).of_same (others .version (by decide)) (others .sig (by decide))⟩
    · simp only [next,ne_eq,unversioned]
      exact ⟨arrived',listed⟩
  | version =>
    simp only [next,signs]
    exact ⟨arrived',(others .sha256 (by decide)).trans before,bytes⟩
  | sig =>
    have text : contents h.updateSigningKey job .sig =
        line (signUpdate c key job.binaryType.slug job.version job.hexHash) := by simp [contents,signs]
    refine ⟨arrived',(others .sha256 (by decide)).trans before.1,?_⟩
    exact signed_of_written ((others .version (by decide)).trans before.2) (bytes.trans (congrArg some text))

/-- An install without errors knows at each point what it is to know there, and has stored what
    belongs together when it ends. -/
theorem Moves.at_next (moves : Moves h s point s' goes) (signs : h.updateSigningKey = some key) (holding : Holding s.disk point)
    (fine : point.job.binaryType ∉ s'.failed) (known : At c (c.pub key) s.disk point) :
    (∀ point', goes = some point' → At c (c.pub key) s'.disk point') ∧
      (goes = none → Consistent c (c.pub key) s'.disk point.job.binaryType) := by
  cases moves with
  | renameFailed job | openFailed job | writeFailed job => exact absurd mem_cons_self fine
  | renamed job renamed =>
    obtain ⟨⟨data,there,hashed⟩,before⟩ := known
    obtain ⟨moved,same⟩ := Disk.rename_same renamed
    refine ⟨?_,fun ended => by cases ended⟩
    rintro point' ⟨⟩
    refine ⟨⟨data,moved.trans there,hashed⟩,before.of_same ?_⟩
    intro part _
    refine (same _ ?_ (canonicalName_ne_beside _ _ part).symm).read
    exact fun tmp => job.tmp_not_stored job.binaryType (.inr ⟨part,tmp.symm⟩)
  | opened job part =>
    obtain ⟨arrived,before⟩ := known
    refine ⟨?_,fun ended => by cases ended⟩
    rintro point' ⟨⟩
    refine ⟨arrived.of_same (Disk.read_openTrunc (canonicalName_ne_beside _ _ part)),before.of_same ?_,Disk.data_openTrunc⟩
    intro part' other
    exact Disk.read_openTrunc (fun same => other (beside_inj same).2)
  | wrote job part node =>
    obtain ⟨arrived,before,empty⟩ := known
    refine ⟨?_,fun ended => by cases ended⟩
    rintro point' ⟨⟩
    exact written_at signs holding arrived before empty
  | passes late later =>
    grind [later.at_iff,late.at_iff]
  | ends job same =>
    constructor
    · intro point' next_
      cases next_
    · intro _
      obtain ⟨arrived,listed,signed⟩ := known
      refine (consistent_of_installed arrived listed signed).of_same ?_
      intro q own
      refine (same q ?_).read
      rintro rfl
      exact job.tmp_not_stored _ own

end

/-! ### Whole runs -/

/-- No two installs are of one type or have one temporary file; each knows what it is to know at
    its point, and what is stored belongs together for every other type, if no install of the
    type has met an error. -/
structure Sound (pub : List UInt8) (p : Arbiter) : Prop where
  types : (p.running.map (fun point => point.job.binaryType)).Nodup
  tmps : (p.running.map (fun point => point.job.tmp)).Nodup
  holding : ∀ point ∈ p.running, Holding p.state.disk point
  installing : ∀ point ∈ p.running, point.job.binaryType ∉ p.state.failed → At c pub p.state.disk point
  installed : ∀ t, t ∉ p.state.failed → (∀ point ∈ p.running, point.job.binaryType ≠ t) → Consistent c pub p.state.disk t

section
variable {c} {h : Handler c} {key : c.PrivateKey} {pub : List UInt8} {disk disk' : Disk GoString} {point : Point} {p : Arbiter}

theorem Holding.of_same (holding : Holding disk point)
    (same : ∀ q, point.job.binaryType.Stores q → disk.SameAt disk' q) : Holding disk' point := by
  cases point with
  | writes job part node => exact (same _ (.inr ⟨part,rfl⟩)).1.trans holding
  | renames | opens | notifies | replicates | removes => trivial

theorem At.of_same (known : At c pub disk point) (holding : Holding disk point)
    (same : ∀ q, point.job.binaryType.Stores q ∨ q = point.job.tmp ∧ disk.read q ≠ none → disk.SameAt disk' q) :
    At c pub disk' point := by
  have bin := (same _ (.inl (.inl rfl))).read
  have sidecar (part : Sidecar) := (same _ (.inl (.inr ⟨part,rfl⟩))).read
  cases point with
  | renames job =>
    obtain ⟨⟨data,there,hashed⟩,before⟩ := known
    refine ⟨⟨data,?_,hashed⟩,before.of_same (fun part _ => sidecar part)⟩
    exact (same _ (.inr ⟨rfl,by simp [Point.job,there]⟩)).read.trans there
  | opens job part => exact ⟨known.1.of_same bin,known.2.of_same (fun part' _ => sidecar part')⟩
  | writes job part node =>
    obtain ⟨arrived,before,empty⟩ := known
    refine ⟨arrived.of_same bin,before.of_same (fun part' _ => sidecar part'),?_⟩
    exact ((same _ (.inl (.inr ⟨part,rfl⟩))).2 node holding).trans empty
  | notifies job | replicates job | removes job =>
    obtain ⟨arrived,listed,signed⟩ := known
    exact ⟨arrived.of_same bin,(sidecar .sha256).trans listed,signed.of_same (sidecar .version) (sidecar .sig)⟩

theorem apart_of_nodup {β : Type} {f : Point → β} {running : List Point} {a b : Point} {j k : Nat}
    (nodup : (running.map f).Nodup) (first : running[j]? = some a) (second : running[k]? = some b) (other : j ≠ k) :
    f a ≠ f b := by
  intro same
  have inside : j < (running.map f).length := by
    rw [length_map]
    exact (List.getElem?_eq_some_iff.mp first).1
  refine other ((List.getElem?_inj inside nodup).mp ?_)
  grind

theorem Moves.others {s' : State} {goes : Option Point} {mover : Point} (moves : Moves h p.state mover s' goes)
    (holding : Holding p.state.disk mover) (type : point.job.binaryType ≠ mover.job.binaryType)
    (tmp : point.job.tmp ≠ mover.job.tmp) (q : GoString) (own : point.job.binaryType.Stores q ∨ q = point.job.tmp) :
    p.state.disk.SameAt s'.disk q := by
  grind [moves.elsewhere,stores_unique,mover.job.tmp_not_stored,point.job.tmp_not_stored]

theorem idle_before {o : Outcome} {k : Nat} {mover : Point} {t : BinaryType} (there : p.running[k]? = some mover)
    (own : mover.job.binaryType ≠ t) (idle : ∀ point ∈ (runAt (act h o) p k).1.running, point.job.binaryType ≠ t) :
    ∀ point ∈ p.running, point.job.binaryType ≠ t := by
  intro point member
  obtain ⟨j,found⟩ := mem_iff_getElem?.mp member
  grind [mem_runAt_iff]

theorem runs_sound (sound : Sound c (c.pub key) p) (signs : h.updateSigningKey = some key) (k : Nat) (o : Outcome) :
    Sound c (c.pub key) (runAt (act h o) p k).1 := by
  cases there : p.running[k]? with
  | none =>
    rw [runAt_none there]
    exact sound
  | some mover =>
    have running := mem_of_getElem? there
    obtain ⟨moves,alone⟩ := act_moves h o p.state mover
    have held := sound.holding mover running
    have state : (runAt (act h o) p k).1.state = (act h o p.state mover).state := runAt_state there
    have grown : ∀ t, t ∉ (act h o p.state mover).state.failed → t ∉ p.state.failed := by
      grind [moves.failed]
    have others : ∀ point j, j ≠ k → p.running[j]? = some point →
        ∀ q, point.job.binaryType.Stores q ∨ q = point.job.tmp → p.state.disk.SameAt (act h o p.state mover).state.disk q := by
      intro point j other found
      exact moves.others held (apart_of_nodup sound.types found there other) (apart_of_nodup sound.tmps found there other)
    refine ⟨?_,?_,?_,?_,?_⟩
    · refine sound.types.sublist (runAt_map_sublist there ?_ alone)
      intro point' next_
      rw [moves.job_eq next_]
    · refine sound.tmps.sublist (runAt_map_sublist there ?_ alone)
      intro point' next_
      rw [moves.job_eq next_]
    · intro point member
      rw [state]
      rcases (mem_runAt_iff there).mp member with ⟨j,other,found⟩ | next_ | started
      · exact (sound.holding point (mem_of_getElem? found)).of_same
          (fun q stored_ => others point j other found q (.inl stored_))
      · exact moves.holding next_
      · simp [alone] at started
    · intro point member fine
      rw [state] at fine ⊢
      rcases (mem_runAt_iff there).mp member with ⟨j,other,found⟩ | next_ | started
      · have old := mem_of_getElem? found
        exact (sound.installing point old (grown _ fine)).of_same (sound.holding point old)
          (fun q own => others point j other found q (own.imp_right And.left))
      · rw [moves.job_eq next_] at fine
        exact (moves.at_next signs held fine (sound.installing mover running (grown _ fine))).1 point next_
      · simp [alone] at started
    · intro t fine idle
      rw [state] at fine ⊢
      by_cases own : mover.job.binaryType = t
      · subst own
        refine (moves.at_next signs held fine (sound.installing mover running (grown _ fine))).2 ?_
        cases next_ : (act h o p.state mover).next with
        | none => rfl
        | some point =>
          have still := idle point ((mem_runAt_iff there).mpr (.inr (.inl next_)))
          rw [moves.job_eq next_] at still
          exact absurd rfl still
      · have before := sound.installed t (grown t fine) (idle_before there own idle)
        refine before.of_same ?_
        intro q stored_
        refine (moves.elsewhere held ?_ (fun both => own (stores_unique both stored_))).read
        rintro rfl
        exact mover.job.tmp_not_stored t stored_

theorem receive_spec (disk : Disk GoString) (r : Upload) (a : Around) (t : BinaryType) (version data : GoString) (n : Nat) :
    (∀ q, q ≠ tmpName n → disk.SameAt (receive (c := c) disk r a t version data n).disk q) ∧
      ∀ job ∈ (receive (c := c) disk r a t version data n).job, ∃ bytes,
        (receive (c := c) disk r a t version data n).disk.read job.tmp = some bytes ∧ hexHash c bytes = job.hexHash := by
  have cleared (bytes : List UInt8) (q : GoString) (other : q ≠ tmpName n) :
      disk.SameAt (a.remove (disk.writeFile (tmpName n) bytes) (tmpName n)) q := by
    unfold Around.remove
    split
    · exact Disk.sameAt_writeFile other bytes
    · exact (Disk.sameAt_writeFile other bytes).trans (Disk.sameAt_remove other)
  grind [receive,Disk.sameAt_writeFile,Disk.read_writeFile_self]

/-- A request leaves the files of all types and those that are there as they are. An upload that
    is accepted is in its temporary file. -/
theorem upload_spec (h : Handler c) (disk : Disk GoString) (r : Upload) (a : Around) :
    (∀ q, (∃ t : BinaryType, t.Stores q) ∨ disk.read q ≠ none → disk.SameAt (adminDownloadsUpload h disk r a).disk q) ∧
      ∀ job ∈ (adminDownloadsUpload h disk r a).job, ∃ data,
        (adminDownloadsUpload h disk r a).disk.read job.tmp = some data ∧ hexHash c data = job.hexHash := by
  have untouched : (∀ q, (∃ t : BinaryType, t.Stores q) ∨ disk.read q ≠ none → disk.SameAt disk q) := fun q _ => .refl disk q
  unfold adminDownloadsUpload
  split
  · exact ⟨untouched,by simp⟩
  split
  · exact ⟨untouched,by simp⟩
  split
  · exact ⟨untouched,by simp⟩
  split
  · exact ⟨untouched,by simp⟩
  split
  · exact ⟨untouched,by simp⟩
  split
  · exact ⟨untouched,by simp⟩
  case h_2 n chosen =>
    have free : disk.read (tmpName n) = none := by
      have kept := (Option.mem_filter_iff.mp chosen).2
      simpa using kept
    obtain ⟨same,arrives⟩ := receive_spec (c := c) disk r a _ _ _ n
    refine ⟨?_,arrives⟩
    grind [tmpName_not_stored]

theorem uploads_sound (sound : Sound c pub p) (r : Upload) (a : Around) (inTurn : InTurn h p (.uploads r a)) :
    Sound c pub (step h p (.uploads r a)).1 := by
  obtain ⟨kept,arrives⟩ := upload_spec h p.state.disk r a
  have stays :=
    fun t q stored_ => kept q (.inl ⟨t,stored_⟩)
  have nodup {β : Type} (f : Job → β) (before : (p.running.map (fun point => f point.job)).Nodup)
      (new : ∀ job ∈ (adminDownloadsUpload h p.state.disk r a).job, ∀ point ∈ p.running, f point.job ≠ f job) :
      ((step h p (.uploads r a)).1.running.map (fun point => f point.job)).Nodup := by
    cases accepted : (adminDownloadsUpload h p.state.disk r a).job with
    | none => simpa [step,Pool.start,accepted] using before
    | some job =>
      simp only [step,Pool.start,accepted,map_append]
      refine nodup_append.mpr ⟨before,nodup_singleton _,?_⟩
      intro x old y last
      obtain ⟨point,member,rfl⟩ := mem_map.mp old
      rw [mem_singleton.mp last]
      exact new job accepted point member
  refine ⟨?_,?_,?_,?_,?_⟩
  · exact nodup Job.binaryType sound.types (fun job accepted point member => ((inTurn job accepted).1 point member).1)
  · exact nodup Job.tmp sound.tmps (fun job accepted point member => ((inTurn job accepted).1 point member).2)
  · intro point member
    rcases mem_append.mp member with old | new
    · exact (sound.holding point old).of_same (stays _)
    · obtain ⟨job,-,rfl⟩ := mem_map.mp new
      trivial
  · intro point member fine
    rcases mem_append.mp member with old | new
    · refine (sound.installing point old fine).of_same (sound.holding point old) ?_
      rintro q (stored_ | ⟨-,there⟩)
      · exact stays _ q stored_
      · exact kept q (.inr there)
    · obtain ⟨job,accepted,rfl⟩ := mem_map.mp new
      have accepted := Option.mem_toList.mp accepted
      obtain ⟨turn,fits⟩ := inTurn job accepted
      refine ⟨arrives job accepted,?_⟩
      intro unversioned
      have consistent := sound.installed job.binaryType fine (fun point member => (turn point member).1)
      have sidecar (part : Sidecar) := (stays job.binaryType _ (.inr ⟨part,rfl⟩)).read
      exact (signed_of_consistent consistent (fits unversioned)).of_same (sidecar .version) (sidecar .sig)
  · intro t fine idle
    have before := sound.installed t fine (fun point member => idle point (mem_append_left _ member))
    exact before.of_same (fun q stored_ => (stays t q stored_).read)

theorem step_sound (signs : h.updateSigningKey = some key) (p : Arbiter) (i : Input) (inTurn : InTurn h p i)
    (sound : Sound c (c.pub key) p) : Sound c (c.pub key) (step h p i).1 := by
  cases i with
  | uploads r a => exact uploads_sound sound r a inTurn
  | runs k o => exact runs_sound sound signs k o

end

/-- With a signing key, and with a disk on which what is stored belongs together to begin with:
    in every run in which each upload comes in turn, what is stored for a type belongs together
    whenever no upload of the type is being installed and none has met an error. -/
theorem published_consistent (h : Handler c) (key : c.PrivateKey) (signs : h.updateSigningKey = some key) (disk : Disk GoString)
    (before : ∀ t, Consistent c (c.pub key) disk t) (inputs : List Input) (inTurn : Along (step h) (InTurn h) (fresh disk) inputs)
    (t : BinaryType) (finished : ∀ point ∈ (final (step h) (fresh disk) inputs).running, point.job.binaryType ≠ t)
    (fine : t ∉ (final (step h) (fresh disk) inputs).state.failed) :
    Consistent c (c.pub key) (final (step h) (fresh disk) inputs).state.disk t := by
  have start : Sound c (c.pub key) (fresh disk) :=
    ⟨nodup_nil,nodup_nil,by simp [fresh],by simp [fresh],fun t _ _ => before t⟩
  have sound :=
    state_along (fun p i turn kept => step_sound signs p i turn kept) inTurn start
  exact sound.installed t fine finished

/-! ### Two uploads -/

def Crypto.plain : Crypto where
  sha256 := id
  PrivateKey := Unit
  pub _ := List.replicate 32 0
  sign _ message := (message ++ List.replicate 64 0).take 64
  verify _ message sig := sig = (message ++ List.replicate 64 0).take 64
  pub_length _ := rfl
  sign_length _ message := by simp
  verify_sign _ message := by simp

def sampleHandler : Handler .plain := ⟨[],true,some (),false,[]⟩

def linuxUpload (version : GoString) (data : List UInt8) : List Input :=
  .uploads ⟨[],true,[],some ⟨ascii "linux",version,some data⟩⟩ ⟨some 1,none,false⟩ :: List.replicate 10 (.runs 0 ⟨false,0⟩)

def sampleRun (inputs : List Input) : Arbiter := final (step sampleHandler) (fresh .empty) inputs

theorem empty_consistent (t : BinaryType) : Consistent c pub .empty t := by
  constructor
  · intro data there
    cases there
  · intro found
    exact absurd rfl found

theorem none_running {inputs : List Input} (ended : (sampleRun inputs).running.isEmpty = true) (t : BinaryType) :
    ∀ point ∈ (sampleRun inputs).running, point.job.binaryType ≠ t := by
  rw [isEmpty_iff.mp ended]
  intro point running
  cases running

theorem along_linuxUpload {p : Arbiter} {version : GoString} {data : List UInt8} (idle : p.running.isEmpty = true)
    (versioned : (adminDownloadsUpload sampleHandler p.state.disk ⟨[],true,[],some ⟨ascii "linux",version,some data⟩⟩
      ⟨some 1,none,false⟩).job.all (fun job => job.version ≠ []) = true) :
    Along (step sampleHandler) (InTurn sampleHandler) p (linuxUpload version data) := by
  refine ⟨?_,along_of_forall _ ?_ _⟩
  · intro job accepted
    rw [Option.mem_def.mp accepted] at versioned
    refine ⟨?_,fun unversioned => absurd unversioned (of_decide_eq_true versioned)⟩
    rw [isEmpty_iff.mp idle]
    intro point running
    cases running
  · intro i member p
    rw [eq_of_mem_replicate member]
    trivial

def newerRelease : List Input := linuxUpload (ascii "2026") [1] ++ linuxUpload (ascii "2027") [2]

theorem published_consistent_linux :
    (sampleRun newerRelease).state.disk.read BinaryType.linux.canonicalName = some [2] ∧
      (sampleRun newerRelease).state.disk.read (BinaryType.linux.beside .sig) ≠ none ∧
      Consistent .plain (Crypto.plain.pub ()) (sampleRun newerRelease).state.disk .linux := by
  have along : Along (step sampleHandler) (InTurn sampleHandler) (fresh .empty) newerRelease :=
    (along_append _).mpr ⟨along_linuxUpload rfl (by decide +kernel),
      along_linuxUpload (by decide +kernel) (by decide +kernel)⟩
  have last : (sampleRun newerRelease).state.disk.read BinaryType.linux.canonicalName = some [2] ∧
      (sampleRun newerRelease).state.disk.read (BinaryType.linux.beside .sig) ≠ none ∧
      (sampleRun newerRelease).running.isEmpty = true ∧ .linux ∉ (sampleRun newerRelease).state.failed := by decide +kernel
  obtain ⟨stored,signed,ended,installed⟩ := last
  refine ⟨stored,signed,?_⟩
  exact published_consistent .plain sampleHandler () rfl .empty (empty_consistent .plain _) _ along .linux
    (none_running ended .linux) installed

def twoUploads : List Input := linuxUpload (ascii "2026") [1] ++ linuxUpload [] [2]

theorem signature_left_behind :
    ¬ ∀ (c : Crypto) (h : Handler c) (key : c.PrivateKey), h.updateSigningKey = some key → ∀ (inputs : List Input) (t : BinaryType),
      (∀ point ∈ (final (step h) (fresh .empty) inputs).running, point.job.binaryType ≠ t) →
      t ∉ (final (step h) (fresh .empty) inputs).state.failed →
        Consistent c (c.pub key) (final (step h) (fresh .empty) inputs).state.disk t := by
  intro always
  -- the run is evaluated once for all that is read from its end
  have last : (sampleRun twoUploads).running.isEmpty = true ∧ .linux ∉ (sampleRun twoUploads).state.failed ∧
      (sampleRun twoUploads).state.disk.read (BinaryType.linux.beside .sig) ≠ none ∧
      (readClientBinaryInfo (sampleRun twoUploads).state.disk BinaryType.linux.canonicalName).verifies .plain
        (Crypto.plain.pub ()) BinaryType.linux.slug = false := by decide +kernel
  obtain ⟨ended,installed,signed,rejected⟩ := last
  have consistent : Consistent .plain (Crypto.plain.pub ()) (sampleRun twoUploads).state.disk .linux :=
    always .plain sampleHandler () rfl twoUploads .linux (none_running ended .linux) installed
  have verified := (consistent.sig signed).2
  rw [rejected] at verified
  cases verified

end TunnelCat.Publish
