import Mathlib.Data.List.Sort
import Mathlib.Data.List.TakeWhile
import TunnelCat.ByteStrings
import TunnelCat.HostPort
import TunnelCat.Table

/-!
The log directory of a client and the parts of the log uploader that read it (`snc/core/log_upload.go`): the
list of files, the cursor file, and the loop that reads on from there until a chunk is full. A file is
read as far as the chunk has room, or passed over (`readFile_cases`).
-/
namespace TunnelCat.LogFiles
open List
open ByteStrings (GoString ascii trimSpace spaces spaces_filled spaces_unprintable)
open HostPort (Text atoi digits)
open NetIP (spell)
open Trim

def mainLogPrefix : GoString := ascii "snc_"
def logSuffix : GoString := ascii ".log"
def logUploadCursorFile : GoString := ascii ".log_upload_cursor"
def maxRawLogPerUpload : Nat := 3 * 2 ^ 20

inductive Entry
  | folder
  | file (bytes : List UInt8)
deriving DecidableEq

abbrev Dir := Table GoString Entry

def isLogName (name : GoString) : Bool :=
  mainLogPrefix.isPrefixOf name && logSuffix.isSuffixOf name &&
    match name.drop mainLogPrefix.length with
    | [] => false
    | c :: _ => 0x30 ≤ c && c ≤ 0x39

def isLogFile (e : Sigma fun _ : GoString => Entry) : Bool :=
  match e.2 with
  | .folder => false
  | .file _ => isLogName e.1

def logFiles (d : Dir) : List GoString := ((d.entries.filter isLogFile).map Sigma.fst).insertionSort (· ≤ ·)

variable {d : Dir} {file : GoString}

theorem mem_logFiles {name : GoString} :
    name ∈ logFiles d ↔ isLogName name = true ∧ ∃ bytes, d.lookup name = some (.file bytes) := by
  rw [logFiles,mem_insertionSort,mem_map]
  constructor
  · rintro ⟨⟨name,entry⟩,member,rfl⟩
    obtain ⟨there,log⟩ := mem_filter.mp member
    cases entry with
    | folder => cases log
    | file bytes => exact ⟨log,bytes,AList.mem_lookup_iff.mpr there⟩
  · rintro ⟨log,bytes,found⟩
    exact ⟨⟨name,.file bytes⟩,mem_filter.mpr ⟨AList.mem_lookup_iff.mp found,log⟩,rfl⟩

theorem logFiles_sorted (d : Dir) : (logFiles d).Pairwise (· < ·) := by
  have ordered : (logFiles d).Pairwise (· ≤ ·) := pairwise_insertionSort _ _
  have distinct : (logFiles d).Nodup := by
    rw [logFiles,(perm_insertionSort _ _).nodup_iff]
    exact d.nodupKeys.sublist filter_sublist
  refine (ordered.and distinct).imp ?_
  rintro a b ⟨le,other⟩
  exact Std.lt_of_le_of_ne le other

structure Stamp where
  text : GoString
  first : ∃ c ∈ text.head?, 0x30 ≤ c ∧ c ≤ 0x39
  clean : ¬ (10 : UInt8) ∈ text
  short : text.length ≤ 32

variable (t : Stamp) (files : List GoString) (n : Nat) (cursor : GoString × Int)

def Stamp.name : GoString := mainLogPrefix ++ t.text ++ logSuffix

theorem stamp_isLogName : isLogName t.name = true := by
  obtain ⟨c,head,digit⟩ := t.first
  obtain ⟨rest,text⟩ := List.head?_eq_some_iff.mp head
  grind [isLogName,Stamp.name]

theorem stamp_clean : ¬ (10 : UInt8) ∈ t.name := by
  have outside : ¬ (10 : UInt8) ∈ mainLogPrefix ∧ ¬ (10 : UInt8) ∈ logSuffix := by decide
  grind [Stamp.name,t.clean]

theorem stamp_short : t.name.length ≤ 255 := by
  have short := t.short
  have ends : mainLogPrefix.length = 4 ∧ logSuffix.length = 4 := by decide
  simp only [Stamp.name,length_append]
  omega

def noon : Stamp := ⟨ascii "2026-08-17_120000",⟨0x32,by decide +kernel⟩,by decide +kernel,by decide +kernel⟩

def later : Stamp := ⟨ascii "2026-08-17_130000",⟨0x32,by decide +kernel⟩,by decide +kernel,by decide +kernel⟩

def decimal : GoString := (Nat.toDigits 10 n).map (fun c => UInt8.ofNat c.toNat)

def formatInt (x : Int) : GoString := if x < 0 then 0x2d :: decimal x.natAbs else decimal x.natAbs

def parseInt (s : GoString) : Option Int := atoi (s.map (fun b => Char.ofNat b.toNat))

def splitLine (s : GoString) : Option (GoString × GoString) :=
  match s.dropWhile (· ≠ 10) with
  | [] => none
  | _ :: rest => some (s.takeWhile (· ≠ 10),rest)

def cursorText (file : GoString) (offset : Int) : GoString := file ++ 10 :: formatInt offset

def parseCursor (raw : GoString) : GoString × Int :=
  match splitLine (trimSpace raw) with
  | none => ([],0)
  | some (file, off) =>
    match parseInt off with
    | none => ([],0)
    | some n => (file,n)

def loadLogUploadCursor (d : Dir) : GoString × Int :=
  match d.lookup logUploadCursorFile with
  | some (.file raw) => parseCursor raw
  | _ => ([],0)

def saveLogUploadCursor (d : Dir) (file : GoString) (offset : Int) (written : Bool) : Dir :=
  if file = [] then d
  else
    match d.lookup logUploadCursorFile with
    | some .folder => d
    | _ => if written then d.insert logUploadCursorFile (.file (cursorText file offset)) else d

inductive Fault
  | none
  | openFails
  | statFails
  | seekFails
  | readFails (n : Nat)
deriving DecidableEq

structure Progress where
  buf : List UInt8
  newFile : GoString
  newOffset : Int

def clamp (offset : Int) (size : Nat) : Int := if offset > size then 0 else offset

def copyN (bytes : List UInt8) (place room : Nat) : Fault → List UInt8
  | .readFails n => ((bytes.drop place).take room).take n
  | _ => (bytes.drop place).take room

def Progress.add (p : Progress) (name : GoString) (place : Int) (copied : List UInt8) : Progress :=
  ⟨p.buf ++ copied,name,place + copied.length⟩

def readFile (d : Dir) (p : Progress) (name : GoString) (offset : Int) (fault : Fault) : Progress :=
  match d.lookup name with
  | some (.file bytes) =>
    if fault = .openFails ∨ fault = .statFails then p
    else if clamp offset bytes.length < bytes.length then
      if fault = .seekFails ∨ clamp offset bytes.length < 0 then p
      else
        p.add name (clamp offset bytes.length)
          (copyN bytes (clamp offset bytes.length).toNat (maxRawLogPerUpload - p.buf.length) fault)
    else p.add name (clamp offset bytes.length) []
  | _ => p

def tailFrom (file : GoString) : Option (List GoString) :=
  match files.dropWhile (· ≠ file) with
  | [] => none
  | f :: rest => some (f :: rest)

def toRead : List (GoString × Int) :=
  match tailFrom files cursor.1 with
  | some (f :: rest) => (f,cursor.2) :: rest.map (fun g => (g,0))
  | _ => files.map (fun g => (g,0))

structure Piece (bytes : List UInt8) (offset : Int) (room place n : Nat) : Prop where
  start : (place : Int) = clamp offset bytes.length
  inside : place + n ≤ bytes.length
  room : n ≤ room

theorem copyN_take (bytes : List UInt8) (place room : Nat) (fault : Fault) :
    ∃ n, copyN bytes place room fault = (bytes.drop place).take n ∧ n ≤ room ∧ n ≤ bytes.length - place ∧
      (fault = .none → n = min room (bytes.length - place)) := by
  cases fault with
  | readFails k =>
    refine ⟨min k (min room (bytes.length - place)),?_,by omega,by omega,fun fine => by cases fine⟩
    rw [copyN,take_take,take_eq_take_iff,length_drop]
    omega
  | _ =>
    refine ⟨min room (bytes.length - place),?_,by omega,by omega,fun _ => rfl⟩
    show (bytes.drop place).take room = _
    rw [take_eq_take_iff,length_drop]
    omega

theorem readFile_cases (d : Dir) (p : Progress) (name : GoString) (offset : Int) (fault : Fault) :
    readFile d p name offset fault = p ∧ (fault = .none → 0 ≤ offset → ∀ bytes, d.lookup name ≠ some (.file bytes)) ∨
      ∃ bytes place n, d.lookup name = some (.file bytes) ∧ Piece bytes offset (maxRawLogPerUpload - p.buf.length) place n ∧
        readFile d p name offset fault = p.add name place ((bytes.drop place).take n) ∧
        (fault = .none → n = min (maxRawLogPerUpload - p.buf.length) (bytes.length - place)) := by
  unfold readFile
  split
  · rename_i bytes found
    split
    · grind
    · split
      · split
        · grind [clamp]
        · have low : 0 ≤ clamp offset bytes.length := by omega
          obtain ⟨n,copied,room,inside,whole⟩ := copyN_take bytes (clamp offset bytes.length).toNat
            (maxRawLogPerUpload - p.buf.length) fault
          refine .inr ⟨bytes,(clamp offset bytes.length).toNat,n,found,⟨Int.toNat_of_nonneg low,by omega,room⟩,?_,whole⟩
          rw [copied,Int.toNat_of_nonneg low]
      · rename_i end_
        have here : clamp offset bytes.length = bytes.length := by
          rw [clamp] at end_ ⊢
          split <;> omega
        refine .inr ⟨bytes,bytes.length,0,found,⟨here.symm,Nat.le_refl _,Nat.zero_le _⟩,?_,?_⟩
        · rw [here,take_zero]
        · omega
  grind

theorem toRead_cases :
    (∃ before rest, files = before ++ cursor.1 :: rest ∧
      toRead files cursor = (cursor.1,cursor.2) :: rest.map (fun g => (g,0))) ∨
      (¬ cursor.1 ∈ files ∧ toRead files cursor = files.map (fun g => (g,0))) := by
  have parts := takeWhile_append_dropWhile (p := fun f => decide (f ≠ cursor.1)) (l := files)
  unfold toRead tailFrom
  cases tail : files.dropWhile (fun f => decide (f ≠ cursor.1)) with
  | nil =>
    refine .inr ⟨?_,rfl⟩
    intro member
    have other := dropWhile_eq_nil_iff.mp tail cursor.1 member
    simp at other
  | cons f rest =>
    grind [List.head?_dropWhile_not]

theorem map_fst_whole : (files.map (fun g => (g,(0 : Int)))).map Prod.fst = files := by
  rw [map_map]
  exact map_id files

theorem toRead_tail : ∀ x ∈ (toRead files cursor).tail, x.2 = 0 := by
  intro x member
  rcases toRead_cases files cursor with ⟨before,rest,-,todo⟩ | ⟨-,todo⟩
  · rw [todo] at member
    obtain ⟨f,-,rfl⟩ := mem_map.mp member
    rfl
  · rw [todo] at member
    obtain ⟨f,-,rfl⟩ := mem_map.mp (mem_of_mem_tail member)
    rfl

theorem file_unique {name : GoString} {bytes bytes' : List UInt8} (first : d.lookup name = some (.file bytes))
    (second : d.lookup name = some (.file bytes')) : bytes = bytes' := by
  grind

theorem spell_toDigits : spell 10 ((Nat.toDigits 10 n).map (fun c => c.toNat - '0'.toNat)) = n := by
  induction n using Nat.strongRecOn with
  | ind n ih =>
    rw [Nat.toDigits_eq_if (by decide)]
    grind [spell,Nat.toNat_digitChar_sub_48_of_lt_ten]

theorem digit_back {c : Char} (digit : c.isDigit = true) : Char.ofNat (UInt8.ofNat c.toNat).toNat = c := by
  have small : c.toNat < 256 := by
    simp only [Char.isDigit,Bool.and_eq_true,decide_eq_true_eq] at digit
    have upper : c.toNat ≤ 57 := digit.2
    omega
  rw [UInt8.toNat_ofNat_of_lt' small,Char.ofNat_toNat]

theorem decimal_chars : (decimal n).map (fun b => Char.ofNat b.toNat) = Nat.toDigits 10 n := by
  rw [decimal,map_map]
  refine (map_congr_left ?_).trans (map_id _)
  exact fun c member => digit_back (Nat.isDigit_of_mem_toDigits (by decide) (by decide) member)

theorem parse_decimal : parseInt (decimal n) = if n < 2 ^ 63 then some (n : Int) else none := by
  have all : ∀ c ∈ Nat.toDigits 10 n, c.isDigit = true := fun c member =>
    Nat.isDigit_of_mem_toDigits (by decide) (by decide) member
  have read : digits (Nat.toDigits 10 n) = some n := by
    have only : ¬ (Nat.toDigits 10 n = [] ∨ (Nat.toDigits 10 n).any (fun c => !c.isDigit) = true) := by
      simpa [any_eq_true] using all
    rw [digits,if_neg only,spell_toDigits]
  rw [parseInt,decimal_chars,atoi,read,Option.bind_some]
  · grind [mem_cons_self]
  · grind [mem_cons_self]

theorem splitLine_text (one : ¬ (10 : UInt8) ∈ file) (rest : GoString) :
    splitLine (file ++ 10 :: rest) = some (file,rest) := by
  have before : ∀ b ∈ file, decide (b ≠ 10) = true := by
    grind
  unfold splitLine
  rw [dropWhile_append_of_pos before,takeWhile_append_of_pos before]
  simp

theorem decimal_digit {n : Nat} {y : UInt8} (member : y ∈ decimal n) : 0x30 ≤ y ∧ y ≤ 0x39 := by
  obtain ⟨c,ofDigits,rfl⟩ := mem_map.mp member
  have digit : c.isDigit = true := Nat.isDigit_of_mem_toDigits (by decide) (by decide) ofDigits
  simp only [Char.isDigit,Bool.and_eq_true,decide_eq_true_eq] at digit
  have lower : 48 ≤ c.toNat := digit.1
  have upper : c.toNat ≤ 57 := digit.2
  rw [UInt8.le_iff_toNat_le,UInt8.le_iff_toNat_le,UInt8.toNat_ofNat_of_lt' (show _ < 256 by omega)]
  exact ⟨lower,upper⟩

theorem decimal_ends : ∃ y, (decimal n).getLast? = some y ∧ 0x30 ≤ y ∧ y ≤ 0x39 := by
  have filled : decimal n ≠ [] := by simp [decimal]
  exact ⟨(decimal n).getLast filled,getLast?_eq_some_getLast filled,decimal_digit (getLast_mem filled)⟩

theorem decimal_injective {m n : Nat} (same : decimal m = decimal n) : m = n := by
  grind [decimal_chars,spell_toDigits]

theorem formatInt_injective {x y : Int} (same : formatInt x = formatInt y) : x = y := by
  have minus (n : Nat) : 0x2d ∉ decimal n := fun member => absurd (decimal_digit member) (by decide)
  grind [formatInt,decimal_injective]

theorem spaces_foreign : ∀ w ∈ spaces, ∀ y ∈ w, ¬ (0x30 ≤ y ∧ y ≤ 0x39) ∧ y ≠ 0x73 := by
  intro w member y inside
  have outside := spaces_unprintable w member y inside
  grind

theorem logName_head (log : isLogName file = true) : ∃ rest, file = 0x73 :: rest := by
  simp only [isLogName,Bool.and_eq_true, isPrefixOf_iff_prefix] at log
  obtain ⟨rest,rfl⟩ := log.1.1
  exact ⟨[0x6e,0x63,0x5f] ++ rest,rfl⟩

theorem parse_cursorText (log : isLogName file = true) (one : ¬ (10 : UInt8) ∈ file) (n : Nat) :
    parseCursor (cursorText file n) = if n < 2 ^ 63 then (file,(n : Int)) else ([],0) := by
  have number : formatInt n = decimal n := by
    rw [formatInt,if_neg (by omega),Int.natAbs_natCast]
  have trimmed : Trimmed spaces (cursorText file n) := by
    obtain ⟨rest,rfl⟩ := logName_head log
    obtain ⟨y,last,digit⟩ := decimal_ends n
    refine trimmed_of_ends spaces_filled rfl (y := y) ?_ ?_
    · rw [cursorText,number,getLast?_append,getLast?_cons,last]
      rfl
    · intro w member
      exact ⟨fun inside => (spaces_foreign w member _ inside).2 rfl,fun inside => (spaces_foreign w member _ inside).1 digit⟩
  grind [parseCursor,trimSpace,trim_of_trimmed,cursorText,splitLine_text,parse_decimal]

theorem load_save (d : Dir) (log : isLogName file = true) (one : ¬ (10 : UInt8) ∈ file) (n : Nat)
    (written : Bool) :
    loadLogUploadCursor (saveLogUploadCursor d file n written) = (file,(n : Int)) ∨
      loadLogUploadCursor (saveLogUploadCursor d file n written) = ([],0) ∨
      saveLogUploadCursor d file n written = d := by
  unfold saveLogUploadCursor
  grind [loadLogUploadCursor,parse_cursorText]

theorem lookup_save (d : Dir) (file : GoString) (offset : Int) (written : Bool) {name : GoString}
    (other : name ≠ logUploadCursorFile) : (saveLogUploadCursor d file offset written).lookup name = d.lookup name := by
  grind [saveLogUploadCursor]

theorem logName_ne_cursor {name : GoString} (log : isLogName name = true) : name ≠ logUploadCursorFile := by
  rintro rfl
  revert log
  decide

theorem load_insert {name : GoString} (e : Entry) (other : name ≠ logUploadCursorFile) :
    loadLogUploadCursor (d.insert name e) = loadLogUploadCursor d := by
  grind [loadLogUploadCursor]

end TunnelCat.LogFiles
