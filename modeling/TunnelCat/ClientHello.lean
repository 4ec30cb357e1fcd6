import TunnelCat.ByteStrings
import TunnelCat.Slices

/-!
The parsers of TLS ClientHellos (`extractChannel` and `extractSNI` in `snc-control/handler.go`, `extractSNI`
in `android-core/sni_sniff.go`) and the route that a control takes by them (`handle`).

A `Hello` has a block of extensions, as those of TLS 1.3 have. One of TLS 1.2 may have none, and there the control's
parser reads on into the bytes behind the hello; the results about hellos do not cover it.
-/
namespace TunnelCat.ClientHello
open Bytes Slices List Option
open ByteStrings (ascii)

def chMagic : UInt8 := 0xA7

def clientHello (data : Data) : Option (Option Data) := do
  if data.length < 5 then return none
  if (← data[0]?) ≠ 0x16 then return none
  let hs ← sliceFrom data 5
  if hs.length < 4 then return none
  if (← hs[0]?) ≠ 0x01 then return none
  return some (← sliceFrom hs 4)

variable (ch : Data) (cap : Nat)

def channelOf : Option (Option UInt8) := do
  if 34 ≥ ch.length then return none
  let sidLen := (← ch[34]?).toNat
  if sidLen < 2 ∨ 35 + sidLen > ch.length then return none
  if (← ch[35]?) ≠ chMagic then return none
  return some (← ch[36]?)

def extractChannel (data : Data) : Option (Option UInt8) := do
  match ← clientHello data with
  | none => return none
  | some ch => channelOf ch

def findSNI (ch : Data) (stop : Nat) : Nat → Nat → Option Data
  | 0, _ => none
  | left + 1, pos =>
    if pos + 4 ≤ stop ∧ pos + 4 ≤ ch.length then do
      let extType ← uint 2 ch pos
      let extDataLen ← uint 2 ch (pos + 2)
      if extType = 0 then
        if extDataLen < 5 ∨ pos + 4 + extDataLen > ch.length then return []
        let nameLen ← uint 2 ch (pos + 4 + 3)
        if pos + 4 + 5 + nameLen > ch.length then return []
        slice ch (pos + 4 + 5) (pos + 4 + 5 + nameLen)
      else findSNI ch stop left (pos + 4 + extDataLen)
    else some []

def sniOf : Option Data := do
  if 34 ≥ ch.length then return []
  let sidLen := (← ch[34]?).toNat
  let pos := 35 + sidLen
  if pos + 2 > ch.length then return []
  let csLen ← uint 2 ch pos
  let pos := pos + 2 + csLen
  if pos ≥ ch.length then return []
  let cmLen := (← ch[pos]?).toNat
  let pos := pos + 1 + cmLen
  if pos + 2 > ch.length then return []
  let extLen ← uint 2 ch pos
  findSNI ch (pos + 2 + extLen) (ch.length + 1) (pos + 2)

def extractSNI (data : Data) : Option Data := do
  match ← clientHello data with
  | none => return []
  | some ch => sniOf ch

namespace Android

def names : Nat → Data → Option (Option Data)
  | 0, _ => none
  | left + 1, list =>
    if list.length < 3 then some none
    else do
      let nameType ← list[0]?
      let nameLen ← uint 2 list 1
      let list ← sliceFrom list 3
      if list.length < nameLen then return some []
      if nameType = 0 then return some (← sliceTo list nameLen)
      names left (← sliceFrom list nameLen)

def extensions : Nat → Data → Option Data
  | 0, _ => none
  | left + 1, exts =>
    if exts.length < 4 then some []
    else do
      let extType ← uint 2 exts 0
      let length ← uint 2 exts 2
      let exts ← sliceFrom exts 4
      if exts.length < length then return []
      let payload ← sliceTo exts length
      let exts ← sliceFrom exts length
      if extType ≠ 0 then extensions left exts
      else if payload.length < 2 then return []
      else
        let list ← sliceFrom payload 2
        match ← names (list.length + 1) list with
        | some name => return name
        | none => extensions left exts

def skip (k : Nat) (body : Data) : Option (Option Data) := do
  if body.length < k then return none
  let n := beNat (← sliceTo body k)
  let body ← sliceFrom body k
  if body.length < n then return none
  return some (← sliceFrom body n)

def extractSNI (data : Data) : Option Data := do
  if data.length < 5 then return []
  if (← data[0]?) ≠ 0x16 then return []
  let recLen ← uint 2 data 3
  let body ← slice data 5 (min (5 + recLen) data.length)
  if body.length < 4 then return []
  if (← body[0]?) ≠ 0x01 then return []
  let body ← sliceFrom body 4
  if body.length < 34 then return []
  let body ← sliceFrom body 34
  match ← skip 1 body with
  | none => return []
  | some body =>
  match ← skip 2 body with
  | none => return []
  | some body =>
  match ← skip 1 body with
  | none => return []
  | some body =>
  if body.length < 2 then return []
  let extLen ← uint 2 body 0
  let body ← sliceFrom body 2
  let exts ← sliceTo body (min extLen body.length)
  extensions (exts.length + 1) exts

end Android

theorem clientHello_eq (data : Data) : clientHello data =
    some (if 9 ≤ data.length ∧ data[0]? = some 0x16 ∧ data[5]? = some 0x01 then some (data.drop 9) else none) := by
  unfold clientHello
  by_cases short : data.length < 5
  · simp [short,show ¬ 9 ≤ data.length by omega]
  obtain ⟨kind,first⟩ := at_total (show 0 < data.length by omega)
  have from5 := sliceFrom_eq (show 5 ≤ data.length by omega)
  by_cases small : data.length < 9
  · grind
  · obtain ⟨type,fifth⟩ := at_total (show 5 < data.length by omega)
    have from4 : sliceFrom (data.drop 5) 4 = some (data.drop 9) := by
      rw [sliceFrom_eq (by rw [length_drop]; omega),drop_drop]
    by_cases tls : kind = 0x16 <;> by_cases hello : type = 0x01 <;>
      simp [short,first,tls,fifth,hello,from5,from4,show ¬ data.length - 5 < 4 by omega,show 9 ≤ data.length by omega]

theorem channelOf_total : ∃ c, channelOf ch = some c := by
  unfold channelOf
  refine total_guard fun _ => total_bind (at_total (by omega)) fun sidLen _ => ?_
  refine total_guard fun _ => total_bind (at_total (by omega)) fun mark _ => ?_
  exact total_guard fun _ => total_bind (at_total (by omega)) fun b _ => ⟨_,rfl⟩

theorem findSNI_total (ch : Data) (stop : Nat) : ∀ left pos, 0 < left → ch.length < left + pos →
    ∃ s, findSNI ch stop left pos = some s
  | 0, _, positive, _ => absurd positive (by simp)
  | left + 1, pos, _, enough => by
    unfold findSNI
    split
    · refine total_bind (uint_total (by omega)) fun type _ => total_bind (uint_total (by omega)) fun n _ => ?_
      split
      · refine total_guard fun _ => total_bind (uint_total (by omega)) fun k _ => total_guard fun _ => ?_
        exact ⟨_,if_pos (by omega)⟩
      · exact findSNI_total ch stop left (pos + 4 + n) (by omega) (by omega)
    · exact ⟨_,rfl⟩

theorem sniOf_total : ∃ s, sniOf ch = some s := by
  unfold sniOf
  refine total_guard fun _ => total_bind (at_total (by omega)) fun sid _ => ?_
  refine total_guard fun _ => total_bind (uint_total (by omega)) fun cs _ => ?_
  refine total_guard fun _ => total_bind (at_total (by omega)) fun cm _ => ?_
  refine total_guard fun _ => total_bind (uint_total (by omega)) fun n _ => ?_
  exact findSNI_total ch _ _ _ (by omega) (by omega)

namespace Android

theorem names_total : ∀ left (list : Data), list.length < left → ∃ s, names left list = some s
  | 0, _, enough => absurd enough (by simp)
  | left + 1, list, enough => by
    unfold names
    refine total_guard fun _ => total_bind (at_total (by omega)) fun type _ => ?_
    refine total_bind (uint_total (by omega)) fun n _ => total_bind (sliceFrom_total (by omega)) fun entry from3 => ?_
    refine total_guard fun _ => ?_
    split
    · exact total_bind (sliceTo_total (by omega)) fun name _ => ⟨_,rfl⟩
    · refine total_bind (sliceFrom_total (by omega)) fun rest from_ => names_total left rest ?_
      grind [length_sliceFrom]

theorem extensions_total : ∀ left (exts : Data), exts.length < left → ∃ s, extensions left exts = some s
  | 0, _, enough => absurd enough (by simp)
  | left + 1, exts, enough => by
    unfold extensions
    refine total_guard fun _ => total_bind (uint_total (by omega)) fun type _ => ?_
    refine total_bind (uint_total (by omega)) fun n _ => total_bind (sliceFrom_total (by omega)) fun entry from4 => ?_
    refine total_guard fun _ => total_bind (sliceTo_total (by omega)) fun payload _ => ?_
    refine total_bind (sliceFrom_total (by omega)) fun rest from_ => ?_
    have later := extensions_total left rest (by have := length_sliceFrom from4; have := length_sliceFrom from_; omega)
    split
    · exact later
    refine total_guard fun _ => total_bind (sliceFrom_total (by omega)) fun list _ => ?_
    refine total_bind (names_total _ list (by omega)) fun found _ => ?_
    cases found with
    | some name => exact ⟨_,rfl⟩
    | none => exact later

theorem skip_total (k : Nat) (body : Data) : ∃ r, skip k body = some r := by
  unfold skip
  refine total_guard fun _ => total_bind (sliceTo_total (by omega)) fun field _ => ?_
  refine total_bind (sliceFrom_total (by omega)) fun vector _ => total_guard fun _ => ?_
  exact total_bind (sliceFrom_total (by omega)) fun rest _ => ⟨_,rfl⟩

theorem skip_bind {k : Nat} {body : Data} {f : Option Data → Option Data} (none : f none = some [])
    (rest : ∀ body, ∃ s, f (some body) = some s) : ∃ s, (skip k body >>= f) = some s := by
  refine total_bind (skip_total k body) fun r _ => ?_
  cases r with
  | none => exact ⟨_,none⟩
  | some body => exact rest body

theorem extractSNI_total (data : Data) : ∃ s, extractSNI data = some s := by
  unfold extractSNI
  refine total_guard fun _ => total_bind (at_total (by omega)) fun kind _ => ?_
  refine total_guard fun _ => total_bind (uint_total (by omega)) fun recLen _ => ?_
  refine total_bind ⟨_,if_pos (by omega)⟩ fun body _ => ?_
  refine total_guard fun _ => total_bind (at_total (by omega)) fun type _ => ?_
  refine total_guard fun _ => total_bind (sliceFrom_total (by omega)) fun ch _ => ?_
  refine total_guard fun _ => total_bind (sliceFrom_total (by omega)) fun sid _ => ?_
  refine skip_bind rfl fun suites => skip_bind rfl fun methods => skip_bind rfl fun rest => ?_
  refine total_guard fun _ => total_bind (uint_total (by omega)) fun extLen _ => ?_
  refine total_bind (sliceFrom_total (by omega)) fun list _ => total_bind (sliceTo_total (by omega)) fun exts _ => ?_
  exact extensions_total _ exts (by omega)

end Android

structure Ext where
  kind : UInt16
  data : Data

variable (x : Ext)

def Ext.encode : Data := beBytes 2 x.kind.toNat ++ (beBytes 2 x.data.length ++ x.data)

def encodeAll (exts : List Ext) : Data := exts.flatMap Ext.encode

theorem Ext.length_encode : x.encode.length = 4 + x.data.length := by
  simp [Ext.encode]
  omega

theorem Ext.kind_ne (other : x.kind ≠ 0) : x.kind.toNat ≠ 0 := fun zero => other (UInt16.toNat_inj.mp zero)

structure ServerName where
  nameType : UInt8
  name : Data
  more : Data

def ServerName.data (s : ServerName) : Data :=
  beBytes 2 (3 + s.name.length + s.more.length) ++ s.nameType :: (beBytes 2 s.name.length ++ (s.name ++ s.more))

def ServerName.ext (s : ServerName) : Ext := ⟨0,s.data⟩

/-- A hello in one record, with one server_name extension or none. -/
structure Hello where
  recordVersion : Data
  versionRandom : Data
  sessionID : Data
  suites : Data
  compression : Data
  before : List Ext
  serverName : Option ServerName
  after : List Ext
  recordVersion_length : recordVersion.length = 2
  versionRandom_length : versionRandom.length = 34
  sessionID_length : sessionID.length ≤ 32
  compression_length : compression.length < 256
  once : ∀ x ∈ before ++ after, x.kind ≠ 0
  fits : 4 + (34 + (1 + sessionID.length) + (2 + suites.length) + (1 + compression.length) + 2 +
    (encodeAll (before ++ serverName.toList.map ServerName.ext ++ after)).length) < 2 ^ 16

namespace Hello
variable (h : Hello)

def exts : Data := encodeAll (h.before ++ h.serverName.toList.map ServerName.ext ++ h.after)

def vectors (t : Data) : Data :=
  beBytes 1 h.sessionID.length ++ (h.sessionID ++ (beBytes 2 h.suites.length ++ (h.suites ++
    (beBytes 1 h.compression.length ++ (h.compression ++ (beBytes 2 h.exts.length ++ t))))))

def head : Data := h.versionRandom ++ h.vectors []

def body : Data := h.head ++ h.exts

def headers : Data := 0x16 :: (h.recordVersion ++ (beBytes 2 (4 + h.body.length) ++ 0x01 :: beBytes 3 h.body.length))

def encode : Data := h.headers ++ h.body

def sessionEnd : Nat := 9 + 35 + h.sessionID.length

def nameEnd (s : ServerName) : Nat := 9 + h.head.length + (encodeAll h.before).length + s.ext.encode.length

def channel : Option UInt8 :=
  match h.sessionID with
  | a :: b :: _ => if a = chMagic then some b else none
  | _ => none

end Hello

section
variable {ch c : Data} {stop left m pos : Nat} {x : Ext}

variable (here : ch.drop pos = x.encode ++ c)
include here

theorem drop_ext :
    ch.drop pos = beBytes 2 x.kind.toNat ++ (beBytes 2 x.data.length ++ (x.data ++ c)) := by
  simp [here,Ext.encode]

theorem inside_of_ext : pos + x.encode.length ≤ ch.length := by
  have start := lt_of_drop (drop_ext here) (ne_nil_of_length_pos (by simp))
  grind [length_append]

theorem findSNI_ext (small : x.data.length < 2 ^ 16) (inside : pos + 4 ≤ stop) :
    findSNI (ch.take m) stop (left + 1) pos =
      if pos + 4 ≤ m then
        if x.kind.toNat = 0 then do
          if x.data.length < 5 ∨ pos + 4 + x.data.length > (ch.take m).length then return []
          let nameLen ← uint 2 (ch.take m) (pos + 4 + 3)
          if pos + 4 + 5 + nameLen > (ch.take m).length then return []
          slice (ch.take m) (pos + 4 + 5) (pos + 4 + 5 + nameLen)
        else findSNI (ch.take m) stop left (pos + x.encode.length)
      else some [] := by
  have first := drop_ext here
  have long := inside_of_ext here
  rw [x.length_encode] at long
  rw [findSNI,x.length_encode,← Nat.add_assoc]
  by_cases cut : pos + 4 ≤ m
  · rw [if_pos ⟨inside,by rw [length_take]; omega⟩,if_pos cut,uint_take (by omega),uint_take (by omega),
      uint_drop first x.kind.toNat_lt,uint_drop (drop_field first) small]
    rfl
  · rw [if_neg (by rw [length_take]; omega),if_neg cut]

omit here

theorem findSNI_name {s : ServerName} (here : ch.drop pos = s.ext.encode ++ c) (small : s.data.length < 2 ^ 16)
    (inside : pos + 4 ≤ stop) :
    findSNI (ch.take m) stop (left + 1) pos = some (if pos + s.ext.encode.length ≤ m then s.name else []) := by
  have size : s.data.length = 5 + s.name.length + s.more.length := by simp [ServerName.data]; omega
  have whole : s.ext.encode.length = 4 + s.data.length := Ext.length_encode _
  have long := inside_of_ext here
  have total : (ch.take m).length = min m ch.length := length_take
  have list : ch.drop (pos + 2 + 2) = s.data ++ c := drop_field (drop_field (drop_ext here))
  have typed : ch.drop (pos + 2 + 2 + 2) = s.nameType :: (beBytes 2 s.name.length ++ (s.name ++ (s.more ++ c))) :=
    drop_field (n := 3 + s.name.length + s.more.length) (by simp [list,ServerName.data])
  have nameLen : uint 2 ch (pos + 4 + 3) = some s.name.length := uint_drop (drop_byte typed) (by omega)
  have after : ch.drop (pos + 2 + 2 + 2 + 1 + 2) = s.name ++ (s.more ++ c) := drop_field (drop_byte typed)
  have name : slice ch (pos + 4 + 5) (pos + 4 + 5 + s.name.length) = some s.name := slice_drop after (by omega)
  rw [findSNI_ext here small inside,if_pos (show s.ext.kind.toNat = 0 from rfl),show s.ext.data = s.data from rfl]
  by_cases all : pos + s.ext.encode.length ≤ m
  · grind [uint_take,slice_take]
  · grind

theorem findSNI_before (exts : List Ext) : ∀ {left pos : Nat}, ch.drop pos = encodeAll exts ++ c → (∀ x ∈ exts, x.kind ≠ 0) →
    (encodeAll exts).length < 2 ^ 16 → pos + (encodeAll exts).length ≤ stop → 0 < left → (ch.take m).length < left + pos →
    (∃ left', findSNI (ch.take m) stop left pos = findSNI (ch.take m) stop (left' + 1) (pos + (encodeAll exts).length)) ∨
    findSNI (ch.take m) stop left pos = some [] ∧ m < pos + (encodeAll exts).length := by
  induction exts with
  | nil =>
    intro left pos _ _ _ _ positive _
    exact .inl ⟨left - 1,by simp [encodeAll,Nat.sub_add_cancel positive]⟩
  | cons x rest ih =>
    intro left pos here other small inside positive enough
    have split : encodeAll (x :: rest) = x.encode ++ encodeAll rest := flatMap_cons
    rw [split,append_assoc] at here
    rw [split,length_append] at small inside ⊢
    have size := x.length_encode
    have long := inside_of_ext here
    rw [length_take] at enough
    obtain ⟨left,rfl⟩ : ∃ n, left = n + 1 := ⟨left - 1,by omega⟩
    rw [findSNI_ext here (by omega) (by omega),if_neg (x.kind_ne (other x (by simp)))]
    by_cases cut : pos + 4 ≤ m
    · rw [if_pos cut,← Nat.add_assoc]
      exact ih (drop_part here) (fun y mem => other y (by simp [mem])) (by omega) (by omega) (by omega) (by rw [length_take]; omega)
    · exact .inr ⟨if_neg cut,by omega⟩

end

namespace Hello
variable (h : Hello) (rest : Data) (n m : Nat)

def nameAt : Data :=
  match h.serverName with
  | some s => if h.nameEnd s ≤ n then s.name else []
  | none => []

def channelAt : Option UInt8 := if h.sessionEnd ≤ n then h.channel else none

theorem length_head : h.head.length = 40 + h.sessionID.length + h.suites.length + h.compression.length := by
  simp [head,vectors,h.versionRandom_length]
  omega

theorem head_append (t : Data) : h.head ++ t = h.versionRandom ++ h.vectors t := by
  simp [head,vectors]

theorem length_headers : h.headers.length = 9 := by
  simp [headers,h.recordVersion_length]

theorem fits_exts : 4 + h.head.length + h.exts.length < 2 ^ 16 := by
  have := h.fits
  have := h.length_head
  unfold exts
  omega

variable {h n m}

theorem nameAt_short (short : n < 9 + h.head.length) : h.nameAt n = [] := by
  grind [nameAt,nameEnd]

theorem exts_named {s : ServerName} (named : h.serverName = some s) :
    h.exts = encodeAll h.before ++ (s.ext.encode ++ encodeAll h.after) := by
  simp [exts,encodeAll,named]

variable (h)

theorem sniOf_exts {left : Nat} (positive : 0 < left) (enough : ((h.body ++ rest).take m).length < left + h.head.length) :
    findSNI ((h.body ++ rest).take m) (h.head.length + h.exts.length) left h.head.length = some (h.nameAt (9 + m)) := by
  have small := h.fits_exts
  have here : (h.body ++ rest).drop h.head.length = h.exts ++ rest := by simp [body]
  cases named : h.serverName with
  | some s =>
    have parts := exts_named named
    have sizes := congrArg List.length parts
    have size := Ext.length_encode s.ext
    simp only [length_append] at sizes
    rw [parts,append_assoc,append_assoc] at here
    have reaches : h.nameEnd s ≤ 9 + m ↔ h.head.length + (encodeAll h.before).length + s.ext.encode.length ≤ m := by
      unfold nameEnd
      omega
    simp only [nameAt,named,reaches]
    have inside : h.head.length + (encodeAll h.before).length ≤ h.head.length + h.exts.length := by omega
    rcases findSNI_before h.before here (fun x mem => h.once x (by simp [mem])) (by omega) inside positive enough with ⟨left',same⟩ | ⟨none,cut⟩
    · rw [same,findSNI_name (drop_part here) (show s.ext.data.length < 2 ^ 16 by omega) (by omega)]
    · rw [none,if_neg (by omega)]
  | none =>
    have parts : h.exts = encodeAll (h.before ++ h.after) := by simp [exts,named]
    simp only [nameAt,named]
    rw [parts] at here small ⊢
    rcases findSNI_before _ here h.once (by omega) (Nat.le_refl _) positive enough with ⟨left',same⟩ | ⟨none,_⟩
    · rw [same]
      simp [findSNI]
    · exact none

theorem drop_body : (h.body ++ rest).drop 34 = h.vectors (h.exts ++ rest) := by
  grind [body,head_append,h.versionRandom_length]

theorem at_byte {l c : Data} {i k m : Nat} (here : l.drop i = beBytes 1 k ++ c) (small : k < 256) (inside : i < m) :
    ∃ b, (l.take m)[i]? = some b ∧ b.toNat = k := by
  grind [UInt8.toNat_ofNat_of_lt',at_drop,beBytes]

theorem length_taken (m : Nat) : ((h.body ++ rest).take m).length = min m (h.head.length + h.exts.length + rest.length) := by
  simp [body,Nat.add_assoc]

variable (m)

theorem sniOf_take : sniOf ((h.body ++ rest).take m) = some (h.nameAt (9 + m)) := by
  have head := h.length_head
  have small := h.fits_exts
  have total := h.length_taken rest m
  have sid := h.sessionID_length
  have suites := drop_part (drop_field (h.drop_body rest))
  have methods := drop_part (drop_field suites)
  have exts := drop_part (drop_field methods)
  have start : 34 + 1 + h.sessionID.length + 2 + h.suites.length + 1 + h.compression.length + 2 = h.head.length := by omega
  unfold sniOf
  by_cases first : 34 ≥ m
  · rw [if_pos (by omega),nameAt_short (by omega)]
    rfl
  obtain ⟨b,read,length⟩ := at_byte (h.drop_body rest) (show h.sessionID.length < 256 by omega) (show 34 < m by omega)
  rw [if_neg (by omega),read]
  simp only [bind_eq_bind,bind_some,length]
  by_cases second : 35 + h.sessionID.length + 2 > m
  · rw [if_pos (by omega),nameAt_short (by omega)]
    rfl
  rw [if_neg (by omega),uint_take (by omega),uint_drop suites (show h.suites.length < 256 ^ 2 by omega),bind_some]
  by_cases third : 35 + h.sessionID.length + 2 + h.suites.length ≥ m
  · rw [if_pos (by omega),nameAt_short (by omega)]
    rfl
  obtain ⟨b,read,length⟩ := at_byte methods h.compression_length (show 35 + h.sessionID.length + 2 + h.suites.length < m by omega)
  rw [if_neg (by omega),read]
  simp only [bind_some,length]
  by_cases fourth : 35 + h.sessionID.length + 2 + h.suites.length + 1 + h.compression.length + 2 > m
  · rw [if_pos (by omega),nameAt_short (by omega)]
    rfl
  rw [if_neg (by omega),uint_take (by omega),uint_drop exts (show h.exts.length < 256 ^ 2 by omega),bind_some]
  have found := h.sniOf_exts rest (m := m) (Nat.succ_pos ((h.body ++ rest).take m).length) (by omega)
  rwa [← start] at found

theorem channelOf_take : channelOf ((h.body ++ rest).take m) = some (h.channelAt (9 + m)) := by
  have head := h.length_head
  have total := h.length_taken rest m
  have sid := h.sessionID_length
  have here := drop_field (h.drop_body rest)
  unfold channelOf channelAt sessionEnd
  by_cases first : 34 ≥ m
  · rw [if_pos (by omega),if_neg (by omega)]
    rfl
  obtain ⟨b,read,length⟩ := at_byte (h.drop_body rest) (show h.sessionID.length < 256 by omega) (show 34 < m by omega)
  rw [if_neg (by omega),read]
  simp only [bind_eq_bind,bind_some,length]
  by_cases cut : 35 + h.sessionID.length > m
  · rw [if_pos (by omega),if_neg (by omega)]
    rfl
  rw [if_pos (show 9 + 35 + h.sessionID.length ≤ 9 + m by omega)]
  cases id : h.sessionID with
  | nil => simp [channel,id]
  | cons a more =>
    cases more with
    | nil => simp [channel,id]
    | cons b more =>
      rw [id] at cut head here
      simp only [length_cons] at cut head
      rw [if_neg (by simp only [length_cons]; omega),getElem?_take_of_lt (by omega),at_drop here,getElem?_take_of_lt (by omega),
        at_drop (drop_byte here)]
      by_cases magic : a = chMagic <;> simp [channel,id,magic]

variable (n)

theorem clientHello_take : clientHello ((h.encode ++ rest).take n) =
    some (if 9 ≤ n then some ((h.body ++ rest).take (n - 9)) else none) := by
  have version := h.recordVersion_length
  have headers := h.length_headers
  rw [clientHello_eq]
  by_cases short : 9 ≤ n
  · have first : (h.encode ++ rest)[0]? = some 0x16 := rfl
    have fifth : (h.encode ++ rest)[5]? = some 0x01 := by
      obtain ⟨a,b,same⟩ := length_eq_two.mp version
      simp [encode,Hello.headers,same,beBytes]
    have body : (h.encode ++ rest).drop 9 = h.body ++ rest := by
      rw [encode,append_assoc]
      exact drop_left' headers
    have long : 9 ≤ h.encode.length + rest.length := by
      simp only [encode,length_append]
      omega
    simp [getElem?_take_of_lt,first,fifth,long,short,drop_take,body,show 0 < n by omega,show 5 < n by omega]
  · simp [short]

theorem extractSNI_take : extractSNI ((h.encode ++ rest).take n) = some (h.nameAt n) := by
  grind [extractSNI,clientHello_take,sniOf_take,nameAt_short]

theorem extractChannel_take : extractChannel ((h.encode ++ rest).take n) = some (h.channelAt n) := by
  simp only [extractChannel,clientHello_take]
  by_cases short : 9 ≤ n
  · grind [channelOf_take]
  · have none : h.channelAt n = none := if_neg (by unfold sessionEnd; omega)
    simp [short,none]

end Hello

namespace Android
variable {a c : Data}

theorem skip_append {k : Nat} {v : Data} (small : v.length < 256 ^ k) : skip k (beBytes k v.length ++ (v ++ c)) = some (some c) := by
  unfold skip
  rw [if_neg (by simp),sliceTo_append (by simp),sliceFrom_append (by simp)]
  simp [beNat_beBytes,Nat.mod_eq_of_lt small,sliceFrom_append]

theorem extensions_ext {x : Ext} {left : Nat} (small : x.data.length < 2 ^ 16) :
    extensions (left + 1) (x.encode ++ c) =
      if x.kind.toNat ≠ 0 then extensions left c
      else if x.data.length < 2 then some []
      else (do
        let list ← sliceFrom x.data 2
        match ← names (list.length + 1) list with
        | some name => return name
        | none => extensions left c) := by
  have parts : x.encode ++ c = beBytes 2 x.kind.toNat ++ (beBytes 2 x.data.length ++ (x.data ++ c)) := drop_ext (show (x.encode ++ c).drop 0 = _ from rfl)
  have from4 : sliceFrom (x.encode ++ c) 4 = some (x.data ++ c) := by
    rw [parts,← append_assoc]
    exact sliceFrom_append (by simp)
  have long := x.length_encode
  have type : uint 2 (x.encode ++ c) 0 = some x.kind.toNat := uint_drop (i := 0) parts x.kind.toNat_lt
  have length : uint 2 (x.encode ++ c) 2 = some x.data.length := uint_drop (drop_field (i := 0) parts) small
  rw [extensions,if_neg (by simp; omega),type,length,from4]
  simp only [bind_eq_bind,bind_some]
  rw [if_neg (by simp),sliceTo_append rfl,sliceFrom_append rfl]
  rfl

variable {s : ServerName}

theorem extensions_name {left : Nat} (host : s.nameType = 0) (small : s.data.length < 2 ^ 16) :
    extensions (left + 1) (s.ext.encode ++ c) = some s.name := by
  have size : s.data.length = 5 + s.name.length + s.more.length := by simp [ServerName.data]; omega
  have list : sliceFrom s.ext.data 2 = some (s.nameType :: (beBytes 2 s.name.length ++ (s.name ++ s.more))) :=
    sliceFrom_append (by simp)
  have entry : sliceFrom (s.nameType :: (beBytes 2 s.name.length ++ (s.name ++ s.more))) 3 = some (s.name ++ s.more) :=
    sliceFrom_append (a := s.nameType :: beBytes 2 s.name.length) (by simp)
  have nameLen : uint 2 (s.nameType :: (beBytes 2 s.name.length ++ (s.name ++ s.more))) 1 = some s.name.length :=
    uint_drop (drop_byte rfl) (by omega)
  have found (k : Nat) : names (k + 1) (s.nameType :: (beBytes 2 s.name.length ++ (s.name ++ s.more))) = some (some s.name) := by
    rw [names,if_neg (by simp),nameLen,entry]
    simp [host,sliceTo_append]
  rw [extensions_ext small,if_neg (by simp [ServerName.ext]),if_neg (by show ¬ s.data.length < 2; omega),list]
  simp [found]

theorem extensions_before (host : s.nameType = 0) (small : s.data.length < 2 ^ 16) (exts : List Ext) :
    ∀ {left : Nat}, (∀ x ∈ exts, x.kind ≠ 0) → (encodeAll exts).length < 2 ^ 16 → (encodeAll exts).length < left →
      extensions left (encodeAll exts ++ (s.ext.encode ++ c)) = some s.name := by
  induction exts with
  | nil =>
    intro left _ _ enough
    obtain ⟨left,rfl⟩ : ∃ n, left = n + 1 := ⟨left - 1,by omega⟩
    exact extensions_name host small
  | cons x rest ih =>
    intro left other few enough
    have split : encodeAll (x :: rest) = x.encode ++ encodeAll rest := flatMap_cons
    rw [split,length_append] at few enough
    have size := x.length_encode
    obtain ⟨left,rfl⟩ : ∃ n, left = n + 1 := ⟨left - 1,by omega⟩
    rw [split,append_assoc,extensions_ext (by omega),if_pos (x.kind_ne (other x (by simp)))]
    exact ih (fun y mem => other y (by simp [mem])) (by omega) (by omega)

theorem sliceTo_split {j : Nat} (after : a.length ≤ j) (inside : j ≤ (a ++ c).length) :
    sliceTo (a ++ c) j = some (a ++ c.take (j - a.length)) := by
  rw [sliceTo_eq inside,take_append,take_of_length_le after]

theorem extractSNI_cut {h : Hello} (named : h.serverName = some s) (host : s.nameType = 0) (t : Data) :
    extractSNI (h.headers ++ (h.head ++ (encodeAll h.before ++ (s.ext.encode ++ t)))) = some s.name := by
  have version := h.recordVersion_length
  have small := h.fits_exts
  have head := h.length_head
  have sizes := congrArg List.length (Hello.exts_named named)
  have whole : h.body.length = h.head.length + h.exts.length := by simp [Hello.body]
  have size : s.ext.encode.length = 4 + s.data.length := Ext.length_encode _
  simp only [length_append] at sizes
  generalize upTo : encodeAll h.before ++ s.ext.encode = exts
  have extsSize : exts.length = (encodeAll h.before).length + s.ext.encode.length := by simp [← upTo]
  generalize data_eq : h.headers ++ (h.head ++ (encodeAll h.before ++ (s.ext.encode ++ t))) = data
  have record : data.drop 3 = beBytes 2 (4 + h.body.length) ++ (0x01 :: beBytes 3 h.body.length ++ (h.head ++ (exts ++ t))) := by
    obtain ⟨a,b,same⟩ := length_eq_two.mp h.recordVersion_length
    simp [← data_eq,← upTo,Hello.headers,same]
  have long : data.length = 9 + h.head.length + exts.length + t.length := by
    simp [← data_eq,h.length_headers]
    omega
  obtain ⟨t',body⟩ : ∃ t', slice data 5 (min (5 + (4 + h.body.length)) data.length) =
      some (0x01 :: beBytes 3 h.body.length ++ (h.head ++ (exts ++ t'))) := by
    generalize stop_eq : min (5 + (4 + h.body.length)) data.length = stop
    refine ⟨t.take (stop - (9 + h.head.length + exts.length)),?_⟩
    have read := slice_drop (l := data) (i := 5) (a := 0x01 :: beBytes 3 h.body.length ++ (h.head ++ (exts ++
      t.take (stop - (9 + h.head.length + exts.length))))) (c := t.drop (stop - (9 + h.head.length + exts.length)))
      (by rw [drop_field record]; simp) (by omega)
    convert read using 2
    simp only [length_cons,length_append,length_beBytes,length_take]
    omega
  have exts' := sliceTo_split (a := exts) (c := t') (j := min h.exts.length (exts ++ t').length)
    (by simp only [length_append]; omega) (by omega)
  unfold extractSNI
  rw [if_neg (by omega),show data[0]? = some 0x16 by simp [← data_eq,Hello.headers],uint_drop record (by omega)]
  simp only [bind_eq_bind,bind_some,body]
  rw [if_neg (by simp),if_neg (by simp),cons_append,getElem?_cons_zero,bind_some,if_neg (by simp),← cons_append,
    sliceFrom_append (by simp),bind_some,h.head_append,if_neg (by simp [h.versionRandom_length]),
    sliceFrom_append h.versionRandom_length.symm,bind_some,Hello.vectors,skip_append (by have := h.sessionID_length; omega)]
  simp only [bind_some,skip_append (show h.suites.length < 256 ^ 2 by omega),
    skip_append (show h.compression.length < 256 ^ 1 from h.compression_length)]
  have few : uint 2 (beBytes 2 h.exts.length ++ (exts ++ t')) 0 = some h.exts.length := uint_drop (i := 0) rfl (by omega)
  rw [if_neg (by simp only [length_append,length_beBytes]; omega),few,bind_some,sliceFrom_append (by simp),bind_some,exts',bind_some,← upTo,append_assoc]
  refine extensions_before host (by omega) h.before (fun x mem => h.once x (by simp [mem])) (by omega) ?_
  simp only [length_append]
  omega

end Android

theorem Hello.encode_cut {h : Hello} {s : ServerName} (named : h.serverName = some s) {n : Nat} (reaches : h.nameEnd s ≤ n) :
    ∃ t, h.encode.take n = h.headers ++ (h.head ++ (encodeAll h.before ++ (s.ext.encode ++ t))) := by
  have parts : h.encode = (h.headers ++ (h.head ++ (encodeAll h.before ++ s.ext.encode))) ++ encodeAll h.after := by
    simp [Hello.encode,Hello.body,exts_named named]
  have long : (h.headers ++ (h.head ++ (encodeAll h.before ++ s.ext.encode))).length ≤ n := by
    simp only [length_append,h.length_headers]
    unfold nameEnd at reaches
    omega
  refine ⟨(encodeAll h.after).take (n - (h.headers ++ (h.head ++ (encodeAll h.before ++ s.ext.encode))).length),?_⟩
  rw [parts,take_append,take_of_length_le long]
  simp

def sampleHello : Hello where
  recordVersion := [3,1]
  versionRandom := List.replicate 34 0
  sessionID := [chMagic,1]
  suites := []
  compression := []
  before := []
  serverName := none
  after := []
  recordVersion_length := rfl
  versionRandom_length := rfl
  sessionID_length := by decide
  compression_length := by decide
  once := by simp
  fits := by decide

/-- No parser indexes out of range, and on a hello that is cut after its server name they find
    that name and the channel. -/
theorem hello_parsers : (∀ data, (extractChannel data).isSome ∧ (extractSNI data).isSome ∧ (Android.extractSNI data).isSome) ∧
    ∀ (h : Hello) (s : ServerName) (n : Nat), h.serverName = some s → s.nameType = 0 → h.nameEnd s ≤ n →
      extractSNI (h.encode.take n) = some s.name ∧ Android.extractSNI (h.encode.take n) = some s.name ∧
      extractChannel (h.encode.take n) = some h.channel := by
  constructor
  · intro data
    refine ⟨?_,?_,isSome_iff_exists.mpr (Android.extractSNI_total data)⟩
    · rw [extractChannel,clientHello_eq]
      split_ifs
      · exact isSome_iff_exists.mpr (channelOf_total _)
      · rfl
    · rw [extractSNI,clientHello_eq]
      split_ifs
      · exact isSome_iff_exists.mpr (sniOf_total _)
      · rfl
  · intro h s n named host reaches
    have name := h.extractSNI_take [] n
    have channel := h.extractChannel_take [] n
    have head := h.length_head
    have session : h.sessionEnd ≤ n := by
      unfold Hello.nameEnd at reaches
      unfold Hello.sessionEnd
      omega
    rw [append_nil] at name channel
    refine ⟨?_,?_,?_⟩
    · simpa [Hello.nameAt,named,reaches] using name
    · obtain ⟨t,parts⟩ := h.encode_cut named reaches
      rw [parts]
      exact Android.extractSNI_cut named host t
    · simpa [Hello.channelAt,session] using channel

def namedHello : Hello :=
  { sampleHello with
    before := [⟨43,[2,3,4]⟩]
    serverName := some ⟨0,ascii "a.test",[]⟩
    after := [⟨16,[]⟩]
    once := by decide
    fits := by decide }

theorem hello_parsers_named : extractSNI (namedHello.encode.take 74) = some (ascii "a.test") ∧
    Android.extractSNI (namedHello.encode.take 74) = some (ascii "a.test") ∧
    extractChannel (namedHello.encode.take 74) = some (some 1) :=
  hello_parsers.2 namedHello ⟨0,ascii "a.test",[]⟩ 74 rfl rfl (by decide)

def relayAPISNIPool : List String :=
  ["ctrl.cdn-assets.net","api.cdn-relay.net","mgmt.edge-static.net","admin.cdn-cache.net","svc.static-assets.net"]

def signalSNIPool : List String :=
  ["push.cdn-assets.net","ws.cdn-relay.net","live.edge-static.net","stream.cdn-cache.net","feed.static-assets.net"]

def natRelaySNIPool : List String :=
  ["edge.cdn-assets.net","relay.cdn-relay.net","proxy.edge-static.net","gateway.cdn-cache.net","forward.static-assets.net"]

inductive ConnType
  | relay
  | signal
  | nat
deriving DecidableEq

def sniType (sni : Data) : Option ConnType :=
  if sni ∈ natRelaySNIPool.map ascii then some .nat
  else if sni ∈ signalSNIPool.map ascii then some .signal
  else if sni ∈ relayAPISNIPool.map ascii then some .relay
  else none

def channelType (ch : UInt8) : Option ConnType :=
  if ch = 0x01 then some .relay else if ch = 0x02 then some .signal else if ch = 0x03 then some .nat else none

def read : List Data → Data × List Data
  | [] => ([],[])
  | segment :: more => (segment.take cap,if segment.length ≤ cap then more else segment.drop cap :: more)

structure PrependConn where
  conn : List Data
  buf : Data
  pos : Nat

def PrependConn.read (c : PrependConn) (cap : Nat) : Data × PrependConn :=
  if c.pos < c.buf.length then ((c.buf.drop c.pos).take cap,{ c with pos := min (c.pos + cap) c.buf.length })
  else ((ClientHello.read cap c.conn).1,{ c with conn := (ClientHello.read cap c.conn).2 })

inductive Route
  | relayAPI
  | exit
deriving DecidableEq

structure Proxy where
  relayAPI : Bool
  relayCfg : Bool

def connType (peeked : Data) : Option (Option ConnType) := do
  match ← extractChannel peeked with
  | some ch => return channelType ch
  | none => return sniType (← extractSNI peeked)

def handle (p : Proxy) (client : List Data) : Option (Route × PrependConn) := do
  let peeked := (read 512 client).1
  let wrapped : PrependConn := ⟨(read 512 client).2,peeked,0⟩
  let type ← connType peeked
  return (if type = some .relay ∧ p.relayAPI ∧ p.relayCfg then .relayAPI else .exit,wrapped)

def PrependConn.content (c : PrependConn) : Data := c.buf.drop c.pos ++ c.conn.flatten

def PrependConn.reads (c : PrependConn) : List Nat → Data × PrependConn
  | [] => ([],c)
  | cap :: caps => ((c.read cap).1 ++ ((c.read cap).2.reads caps).1,((c.read cap).2.reads caps).2)

theorem read_all (segments : List Data) : (read cap segments).1 ++ (read cap segments).2.flatten = segments.flatten := by
  cases segments with
  | nil => rfl
  | cons segment more =>
    by_cases whole : segment.length ≤ cap
    · simp [read,whole,take_of_length_le whole]
    · simp [read,whole,← append_assoc]

theorem PrependConn.read_content (c : PrependConn) (cap : Nat) : (c.read cap).1 ++ (c.read cap).2.content = c.content := by
  unfold PrependConn.read content
  split_ifs with buffered
  · have rest : c.buf.drop (min (c.pos + cap) c.buf.length) = (c.buf.drop c.pos).drop cap := by
      grind [drop_drop,drop_eq_nil_of_le]
    simp [rest,← append_assoc]
  grind [drop_eq_nil_of_le,read_all]

theorem PrependConn.reads_content (caps : List Nat) : ∀ c : PrependConn, (c.reads caps).1 ++ (c.reads caps).2.content = c.content := by
  induction caps with
  | nil => simp [reads]
  | cons cap caps ih =>
    intro c
    rw [reads,append_assoc,ih,c.read_content]

namespace Hello
variable (h : Hello)

/-- The hello asks for the relay API. -/
def ForRelay : Prop :=
  match h.channel with
  | some ch => ch = 0x01
  | none => ∃ s ∈ h.serverName, s.name ∈ relayAPISNIPool.map ascii

/-- Where the bytes end that say so. -/
def decided : Nat :=
  match h.channel with
  | some _ => h.sessionEnd
  | none => (h.serverName.map h.nameEnd).getD 0

theorem sniType_eq (sni : Data) : sniType sni = some .relay ↔ sni ∈ relayAPISNIPool.map ascii := by
  have apart : ∀ sni ∈ relayAPISNIPool.map ascii, sni ∉ natRelaySNIPool.map ascii ∧ sni ∉ signalSNIPool.map ascii := by decide +kernel
  grind [sniType]

theorem connType_take (rest : Data) (n : Nat) :
    ∃ t, connType ((h.encode ++ rest).take n) = some t ∧ (t = some .relay ↔ h.ForRelay ∧ h.decided ≤ n) := by
  have unnamed : ([] : Data) ∉ relayAPISNIPool.map ascii := by decide +kernel
  have late : h.nameAt n ≠ [] → h.sessionEnd ≤ n := by
    grind [nameAt,h.length_head,nameEnd,sessionEnd]
  simp only [connType,extractChannel_take,extractSNI_take]
  cases channel : h.channelAt n with
  | some ch =>
    unfold channelAt at channel
    split_ifs at channel with read
    refine ⟨_,rfl,?_⟩
    grind [ForRelay,decided,channelType]
  | none =>
    refine ⟨_,rfl,?_⟩
    grind [sniType_eq,channelAt,decided,ForRelay,nameAt]

theorem decided_le : h.decided ≤ h.encode.length := by
  have head := h.length_head
  have size : h.encode.length = 9 + h.head.length + h.exts.length := by
    simp [encode,body,h.length_headers,Nat.add_assoc]
  unfold decided
  split
  · unfold sessionEnd
    omega
  · cases named : h.serverName with
    | none => simp
    | some s =>
      grind [exts_named,nameEnd]

end Hello

variable {p : Proxy} {h : Hello} {rest segment : Data} {more : List Data}

theorem handle_route (stream : segment ++ more.flatten = h.encode ++ rest) :
    ∃ route conn, handle p (segment :: more) = some (route,conn) ∧ conn.content = h.encode ++ rest ∧
      (route = .relayAPI ↔ (h.ForRelay ∧ h.decided ≤ min segment.length 512) ∧ p.relayAPI ∧ p.relayCfg) := by
  have peeked : segment.take 512 = (h.encode ++ rest).take (min segment.length 512) := by
    grind
  obtain ⟨t,type,relay⟩ := h.connType_take rest (min segment.length 512)
  rw [← peeked] at type
  refine ⟨_,_,by rw [handle,show (read 512 (segment :: more)).1 = segment.take 512 from rfl,type]; rfl,?_,?_⟩
  · rw [← stream]
    exact read_all 512 (segment :: more)
  · grind

/-- Every byte is forwarded as it came. The route is that of a hello that is read as a whole exactly when
    a hello for the relay API, decided in its first 512 bytes, is decided in its first segment. -/
theorem segmentation_iff (p : Proxy) (h : Hello) (rest segment : Data) (more : List Data)
    (stream : segment ++ more.flatten = h.encode ++ rest) :
    ∃ route conn whole conn', handle p (segment :: more) = some (route,conn) ∧ handle p [h.encode,rest] = some (whole,conn') ∧
      (∀ caps, (conn.reads caps).1 ++ (conn.reads caps).2.content = h.encode ++ rest) ∧
      (route = whole ↔ (p.relayAPI ∧ p.relayCfg → h.ForRelay → h.decided ≤ 512 → h.decided ≤ segment.length)) := by
  obtain ⟨route,conn,taken,content,first⟩ := handle_route (p := p) stream
  obtain ⟨whole,conn',taken',-,second⟩ := handle_route (p := p) (show h.encode ++ [rest].flatten = h.encode ++ rest by simp)
  refine ⟨route,conn,whole,conn',taken,taken',fun caps => (conn.reads_content caps).trans content,?_⟩
  have inside := h.decided_le
  have reached : h.decided ≤ min h.encode.length 512 ↔ h.decided ≤ 512 := by omega
  have read : h.decided ≤ min segment.length 512 ↔ h.decided ≤ segment.length ∧ h.decided ≤ 512 := by omega
  rw [reached] at second
  rw [read] at first
  have same : route = whole ↔ (route = .relayAPI ↔ whole = .relayAPI) := by cases route <;> cases whole <;> simp
  rw [same,first,second]
  constructor
  · intro agree ready relay early
    exact (agree.mpr ⟨⟨relay,early⟩,ready⟩).1.2.1
  · intro early
    constructor
    · exact fun now => ⟨⟨now.1.1,now.1.2.2⟩,now.2⟩
    · exact fun later => ⟨⟨later.1.1,early later.2 later.1.1 later.1.2,later.1.2⟩,later.2⟩

theorem segmentation_sample : (handle ⟨true,true⟩ [sampleHello.encode.take 50,[]]).map Prod.fst = some .relayAPI ∧
    ∃ route conn whole conn', handle ⟨true,true⟩ [sampleHello.encode.take 50,sampleHello.encode.drop 50] = some (route,conn) ∧
      handle ⟨true,true⟩ [sampleHello.encode,[]] = some (whole,conn') ∧ route = whole := by
  obtain ⟨route,conn,whole,conn',taken,taken',-,same⟩ := segmentation_iff ⟨true,true⟩ sampleHello [] (sampleHello.encode.take 50)
    [sampleHello.encode.drop 50] (by simp)
  exact ⟨by decide,route,conn,whole,conn',taken,taken',same.mpr (fun _ _ _ => by decide)⟩

/-- Ten bytes of a hello for the relay API come in first, and the connection goes to an exit. -/
theorem segmentation_early : ¬ ∀ (p : Proxy) (h : Hello) (rest : Data) (segments : List Data), segments.flatten = h.encode ++ rest →
    (handle p segments).map Prod.fst = (handle p [h.encode,rest]).map Prod.fst := by
  intro all
  have same := all ⟨true,true⟩ sampleHello [] [sampleHello.encode.take 10,sampleHello.encode.drop 10] (by simp)
  exact absurd same (by decide)

end TunnelCat.ClientHello
