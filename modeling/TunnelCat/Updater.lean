import Mathlib.Data.List.TakeWhile
import TunnelCat.Publish

/-!
The search of a Windows client for an update (`checkAndDownload` in `snc/core/updater.go`), one control after
the other. A control whose update is not valid is passed over; one whose version is not newer ends the search;
and versions are compared as texts.
-/
namespace TunnelCat.Updater
open Bytes ByteStrings Publish

def untilSpace : GoString → GoString
  | [] => []
  | b :: rest => if spaces.any (fun w => w.isPrefixOf (b :: rest)) then [] else b :: untilSpace rest

variable (s : GoString)

def firstField : Option GoString := if trimSpace s = [] then none else some (untilSpace (trimSpace s))

def isDigit (b : UInt8) : Bool := 48 ≤ b && b ≤ 57

def isNumericVersion : Bool := 12 ≤ s.length && s.all isDigit

def number : Nat := s.foldl (fun n b => n * 10 + (b.toNat - 48)) 0

/-- What the client is built with: cryptography and the public key of updates, `strings.ToLower`,
    and the entries of a ZIP, none for an entry that cannot be read. -/
structure World where
  crypto : Crypto
  pub : List UInt8
  toLower : GoString → GoString
  unzip : List UInt8 → Option (List (GoString × Option (List UInt8)))

structure Files where
  executable : Bool
  create : Bool
  write : Bool
  extract : Bool

/-- What a control answers in one search: whether its URL can be parsed, the bodies of the version,
    the hash and the signature, and of each attempt to download, with whether it was complete. -/
structure Control where
  parses : Bool
  version : Option GoString
  sha256 : Option GoString
  sig : Option GoString
  zip : Nat → Option (List UInt8 × Bool)

def slug (installerManaged : Bool) : BinaryType := if installerManaged then .windows else .windowsInstaller

def remoteVersion (ctl : Control) : Option GoString :=
  if !ctl.parses then none
  else ((ctl.version.map trimSpace).filter (fun v => v ≠ [])).filter isNumericVersion

section
variable (w : World) (files : Files)

def download (ctl : Control) (expectedHash : GoString) : List Nat → Option (List UInt8)
  | [] => none
  | attempt :: rest =>
    match ctl.zip attempt with
    | none => download ctl expectedHash rest
    | some (data, complete) =>
      if !(complete && files.write) || hexHash w.crypto data ≠ expectedHash then download ctl expectedHash rest else some data

def maxAttempts : List Nat := [1,2,3]

def extractExeFromZip (data : List UInt8) : Option (List UInt8) :=
  if !files.extract then none
  else (w.unzip data).bind (fun entries =>
    (entries.find? (fun e => (ascii ".exe").isSuffixOf (w.toLower e.1))).bind Prod.snd)

variable (installerManaged : Bool) (running : GoString) (ctl : Control) (version : GoString)

def verified (data : List UInt8) : Option (List UInt8) :=
  let sig := trimSpace (ctl.sig.getD [])
  if verifyUpdateSig w.crypto w.pub (slug installerManaged).slug version (hexHash w.crypto data) sig then
    extractExeFromZip w files data
  else none

def validUpdate : Option (List UInt8) :=
  ((ctl.sha256.bind firstField).bind (fun field => download w files ctl (w.toLower field) maxAttempts)).bind
    (verified w files installerManaged ctl version)

inductive Outcome
  | nothing
  | upToDate (version : GoString)
  | fileError
  | staged (version : GoString) (exe : List UInt8)
deriving DecidableEq

def visit : Option Outcome :=
  match remoteVersion ctl with
  | none => none
  | some version =>
    if version ≤ running then some (.upToDate version)
    else
      match ctl.sha256.bind firstField with
      | none => none
      | some _ =>
        if !files.executable then some .fileError
        else if !files.create && maxAttempts.any (fun k => (ctl.zip k).isSome) then some .fileError
        else (validUpdate w files installerManaged ctl version).map (.staged version)

def checkAndDownload (controls : List Control) : Outcome :=
  (controls.findSome? (visit w files installerManaged running)).getD .nothing

/-- A correctly signed update with a greater version. -/
def isNewer (ctl : Control) : Bool :=
  remoteVersion ctl = some version && number running < number version &&
    (validUpdate w files installerManaged ctl version).isSome

/-- The control has no version, or one that sorts after the running one and no valid update. -/
def PassedOver : Prop :=
  ∀ version ∈ remoteVersion ctl, running < version ∧ validUpdate w files installerManaged ctl version = none

def Files.succeed : Files := ⟨true,true,true,true⟩

variable {w} {installerManaged} {running version} {ctl}

theorem visit_later (has : remoteVersion ctl = some version) (later : running < version) :
    visit w .succeed installerManaged running ctl = (validUpdate w .succeed installerManaged ctl version).map (.staged version) := by
  have older : ¬ version ≤ running := not_not.mpr later
  simp only [visit,has,if_neg older]
  cases hash : ctl.sha256.bind firstField with
  | none => simp [validUpdate,hash]
  | some field => rfl

theorem visit_none_iff : visit w .succeed installerManaged running ctl = none ↔ PassedOver w .succeed installerManaged running ctl := by
  unfold PassedOver
  cases has : remoteVersion ctl with
  | none => simp [visit,has]
  | some version =>
    simp only [Option.mem_some_iff,forall_eq']
    by_cases later : running < version
    · rw [visit_later has later,Option.map_eq_none_iff]
      exact (and_iff_right later).symm
    grind [visit]

theorem visit_staged {exe : List UInt8} (staged : visit w .succeed installerManaged running ctl = some (.staged version exe)) :
    remoteVersion ctl = some version ∧ running < version ∧ validUpdate w .succeed installerManaged ctl version = some exe := by
  cases has : remoteVersion ctl with
  | none => simp [visit,has] at staged
  | some served =>
    by_cases later : running < served
    · rw [visit_later has later] at staged
      grind [Option.map_eq_some_iff]
    grind [visit]

theorem isNewer_iff : isNewer w .succeed installerManaged running version ctl = true ↔
    remoteVersion ctl = some version ∧ number running < number version ∧
      ∃ exe, validUpdate w .succeed installerManaged ctl version = some exe := by
  simp [isNewer,Option.isSome_iff_exists,and_assoc]

theorem visit_newer (newer : isNewer w .succeed installerManaged running version ctl = true) (later : running < version) :
    ∃ exe, visit w .succeed installerManaged running ctl = some (.staged version exe) := by
  obtain ⟨has,-,exe,valid⟩ := isNewer_iff.mp newer
  exact ⟨exe,by rw [visit_later has later,valid]; rfl⟩

theorem checkAndDownload_staged {controls : List Control} {exe : List UInt8} :
    checkAndDownload w .succeed installerManaged running controls = .staged version exe ↔
      controls.findSome? (visit w .succeed installerManaged running) = some (.staged version exe) := by
  unfold checkAndDownload
  cases controls.findSome? (visit w .succeed installerManaged running) <;> simp

/-- Where some control has a newer update, it is staged exactly when its version sorts after the
    running one, and the controls before the first that has it are passed over. -/
theorem staged_newer_iff (w : World) (installerManaged : Bool) (running version : GoString) (controls : List Control)
    (served : ∃ ctl ∈ controls, isNewer w .succeed installerManaged running version ctl = true) :
    (∃ exe, checkAndDownload w .succeed installerManaged running controls = .staged version exe) ↔
      running < version ∧ ∀ ctl ∈ controls.takeWhile (fun ctl => !isNewer w .succeed installerManaged running version ctl),
        PassedOver w .succeed installerManaged running ctl := by
  simp only [checkAndDownload_staged]
  constructor
  · rintro ⟨exe,found⟩
    obtain ⟨before,ctl,after,rfl,staged,passed⟩ := List.findSome?_eq_some_iff.mp found
    obtain ⟨has,later,valid⟩ := visit_staged staged
    obtain ⟨other,-,otherNewer⟩ := served
    have newer : isNewer w .succeed installerManaged running version ctl = true :=
      isNewer_iff.mpr ⟨has,(isNewer_iff.mp otherNewer).2.1,exe,valid⟩
    refine ⟨later,?_⟩
    intro early inside
    -- The first control that has the update is at most the one it was staged from.
    have among : early ∈ before := by
      rw [List.takeWhile_append] at inside
      split at inside
      · simpa [newer] using inside
      · exact (List.takeWhile_sublist _).subset inside
    exact visit_none_iff.mp (passed early among)
  · rintro ⟨later,passed⟩
    obtain ⟨first,rest,split_⟩ : ∃ first rest, controls.dropWhile
        (fun ctl => !isNewer w .succeed installerManaged running version ctl) = first :: rest := by
      refine List.exists_cons_of_ne_nil ?_
      obtain ⟨ctl,member,newer⟩ := served
      intro none_
      have all := List.dropWhile_eq_nil_iff.mp none_ ctl member
      simp [newer] at all
    have newer : isNewer w .succeed installerManaged running version first = true := by
      have head := List.head?_dropWhile_not (fun ctl => !isNewer w .succeed installerManaged running version ctl) controls
      simpa [split_] using head
    obtain ⟨exe,staged⟩ := visit_newer newer later
    refine ⟨exe,List.findSome?_eq_some_iff.mpr ⟨_,first,rest,?_,staged,fun ctl early => visit_none_iff.mpr (passed ctl early)⟩⟩
    rw [← split_]
    exact (List.takeWhile_append_dropWhile ..).symm

end

def World.plain : World := ⟨.plain,List.replicate 32 0,id,fun data => some [(ascii "client.exe",some data)]⟩

def sampleControl (version data : GoString) : Control :=
  ⟨true,some (line version),some (hexHash .plain data),
    some (signUpdate .plain () (slug false).slug version (hexHash .plain data)),fun _ => some (data,true)⟩

def sampleRunning : GoString := ascii "202609010000"

def sampleNext : GoString := ascii "202609020000"

theorem sample_newer : isNewer .plain .succeed false sampleRunning sampleNext (sampleControl sampleNext [1]) = true := by
  decide +kernel

def sampleControls : List Control := [⟨true,none,none,none,fun _ => none⟩,sampleControl sampleNext [1]]

theorem staged_newer_sample :
    (∃ exe, checkAndDownload .plain .succeed false sampleRunning sampleControls = .staged sampleNext exe) ↔
      sampleRunning < sampleNext ∧
        ∀ ctl ∈ sampleControls.takeWhile (fun ctl => !isNewer .plain .succeed false sampleRunning sampleNext ctl),
          PassedOver .plain .succeed false sampleRunning ctl :=
  staged_newer_iff .plain false sampleRunning sampleNext sampleControls ⟨_,by simp [sampleControls],sample_newer⟩

def staleFirst : List Control := [sampleControl sampleRunning [0],sampleControl sampleNext [1]]

/-- What the controls besides those with the update may serve: a version that is not greater, or no valid update. -/
def Unhelpful (w : World) (installerManaged : Bool) (running : GoString) (ctl : Control) : Prop :=
  ∀ version ∈ remoteVersion ctl, number version ≤ number running ∨ validUpdate w .succeed installerManaged ctl version = none

theorem stale_control_ends_search :
    ¬ ∀ (w : World) (installerManaged : Bool) (running version : GoString) (controls : List Control),
      (∃ ctl ∈ controls, isNewer w .succeed installerManaged running version ctl = true) →
      (∀ ctl ∈ controls, isNewer w .succeed installerManaged running version ctl = true ∨ Unhelpful w installerManaged running ctl) →
      ∃ exe, checkAndDownload w .succeed installerManaged running controls = .staged version exe := by
  intro always
  have stale : Unhelpful .plain false sampleRunning (sampleControl sampleRunning [0]) := by
    intro version has
    have same : remoteVersion (sampleControl sampleRunning [0]) = some sampleRunning := by decide +kernel
    cases same.symm.trans has
    exact .inl (le_refl _)
  obtain ⟨exe,staged⟩ := always .plain false sampleRunning sampleNext staleFirst ⟨_,by simp [staleFirst],sample_newer⟩
    (by simpa [staleFirst] using ⟨.inr stale,.inl sample_newer⟩)
  have ends : checkAndDownload .plain .succeed false sampleRunning staleFirst = .upToDate sampleRunning := by decide +kernel
  cases ends.symm.trans staged

end TunnelCat.Updater
