import TunnelCat.Json
import Mathlib.Data.Rat.Lemmas
import Mathlib.Data.String.Basic
import Mathlib.Order.Basic

/-!
Go values written as JSON and read back. A codec is the way of one Go type: how `json.Marshal` writes a
value, how `json.Unmarshal` reads one over an old value, the zero value, and what `omitempty` leaves
out. A field that another struct reads under the same name gets the value that was written
(`field_marshal`). Go maps are written with their keys in order, so a map is a list in that order.
-/
namespace TunnelCat
open List
universe u

@[ext]
structure Dict (ν : Type u) where
  entries : List (String × ν)
  sorted : entries.Pairwise (fun a b => a.1 < b.1)
deriving DecidableEq

namespace Dict
variable {ν : Type u}

def empty : Dict ν := ⟨[],.nil⟩

def insertEntry (key : String) (value : ν) : List (String × ν) → List (String × ν)
  | [] => [(key,value)]
  | e :: rest =>
    if key < e.1 then (key,value) :: e :: rest
    else if key = e.1 then (key,value) :: rest
    else e :: insertEntry key value rest

variable {entries : List (String × ν)}

theorem mem_insertEntry {key : String} {value : ν} {e : String × ν}
    (member : e ∈ insertEntry key value entries) : e = (key,value) ∨ e ∈ entries := by
  induction entries with
  | nil => simpa [insertEntry] using member
  | cons head rest ih =>
    grind [insertEntry]

variable (m : Dict ν) (key : String) (value : ν)

theorem insertEntry_sorted
    (sorted : entries.Pairwise (fun a b => a.1 < b.1)) :
    (insertEntry key value entries).Pairwise (fun a b => a.1 < b.1) := by
  induction sorted with
  | nil => simp [insertEntry]
  | @cons head rest above tail ih =>
    unfold insertEntry
    split_ifs with before same
    · refine .cons ?_ (.cons above tail)
      grind
    · subst same
      exact .cons above tail
    · refine .cons ?_ ih
      intro e member
      cases mem_insertEntry member with
      | inl new => rw [new]; exact lt_of_le_of_ne (not_lt.mp before) (Ne.symm same)
      | inr old => exact above e old

def insert : Dict ν :=
  ⟨insertEntry key value m.entries,insertEntry_sorted key value m.sorted⟩

def lookup : Option ν := m.entries.lookup key

theorem insertEntry_last
    (below : ∀ e ∈ entries, e.1 < key) : insertEntry key value entries = entries ++ [(key,value)] := by
  induction entries with
  | nil => rfl
  | cons head rest ih =>
    grind [insertEntry]

theorem insert_all (sorted : entries.Pairwise (fun a b => a.1 < b.1)) (m : Dict ν)
    (below : ∀ a ∈ m.entries, ∀ b ∈ entries, a.1 < b.1) :
    (entries.foldl (fun d e => d.insert e.1 e.2) m).entries = m.entries ++ entries := by
  induction sorted generalizing m with
  | nil => simp
  | @cons head rest above tail ih =>
    have last : (m.insert head.1 head.2).entries = m.entries ++ [head] :=
      insertEntry_last head.1 head.2 (fun e member => below e member head mem_cons_self)
    rw [foldl_cons,ih,last,append_assoc,singleton_append]
    grind

theorem insert_entries : m.entries.foldl (fun d e => d.insert e.1 e.2) empty = m := by
  grind [Dict.ext,empty,insert_all,m.sorted]

end Dict

structure Codec (α : Type u) where
  encode : α → Json
  decode : Json.Decoder α
  zero : α
  /-- What `omitempty` leaves out. -/
  empty : α → Bool
  decode_encode : ∀ a, decode zero (encode a) = ⟨a,true⟩
  empty_zero : ∀ a, empty a = true → a = zero

namespace Json

def boolean : Decoder Bool
  | _, .bool b => ⟨b,true⟩
  | old, .null => ⟨old,true⟩
  | old, _ => ⟨old,false⟩

def int64 : Decoder Int64
  | old, .num n =>
    if n.den = 1 ∧ Int64.minValue.toInt ≤ n.num ∧ n.num ≤ Int64.maxValue.toInt then ⟨Int64.ofInt n.num,true⟩
    else ⟨old,false⟩
  | old, .null => ⟨old,true⟩
  | old, _ => ⟨old,false⟩

def float64 : Decoder Rat
  | _, .num n => ⟨n,true⟩
  | old, .null => ⟨old,true⟩
  | old, _ => ⟨old,false⟩

def pointer {α : Type u} (decode : Decoder α) (zero : α) : Decoder (Option α)
  | _, .null => ⟨none,true⟩
  | old, doc =>
    let d := decode (old.getD zero) doc
    ⟨some d.value,d.ok⟩

def elements {α : Type u} (decode : Decoder α) (zero : α) : List α → List Json → Decoded (List α)
  | _, [] => ⟨[],true⟩
  | old, item :: rest =>
    let d := decode (old.headD zero) item
    let more := elements decode zero old.tail rest
    ⟨d.value :: more.value,d.ok && more.ok⟩

def slice {α : Type u} (decode : Decoder α) (zero : α) : Decoder (List α)
  | old, .arr items => elements decode zero old items
  | _, .null => ⟨[],true⟩
  | old, _ => ⟨old,false⟩

def entryStep {α : Type u} (decode : Decoder α) (zero : α) (d : Decoded (Dict α)) (m : String × Json) :
    Decoded (Dict α) :=
  ⟨d.value.insert m.1 (decode zero m.2).value,d.ok && (decode zero m.2).ok⟩

def dict {α : Type u} (decode : Decoder α) (zero : α) : Decoder (Dict α)
  | old, .obj members => members.foldl (entryStep decode zero) ⟨old,true⟩
  | _, .null => ⟨Dict.empty,true⟩
  | old, _ => ⟨old,false⟩

end Json

namespace Codec
open Json
variable {α : Type u}

def string : Codec String where
  encode := .str
  decode := Json.string
  zero := ""
  empty s := s = ""
  decode_encode _ := rfl
  empty_zero _ same := of_decide_eq_true same

def boolean : Codec Bool where
  encode := .bool
  decode := Json.boolean
  zero := false
  empty b := !b
  decode_encode _ := rfl
  empty_zero b same := by simpa using same

theorem int64_ofInt (a : Int64) : Json.int64 0 (.num (a.toInt : Rat)) = ⟨a,true⟩ := by
  have low := Int64.minValue_le_toInt a
  have high := Int64.toInt_le a
  simp only [Json.int64]
  rw [if_pos]
  · simp
  · exact ⟨by simp,by simpa using low,by simpa using high⟩

def int64 : Codec Int64 where
  encode a := .num a.toInt
  decode := Json.int64
  zero := 0
  empty a := a = 0
  decode_encode := int64_ofInt
  empty_zero _ same := of_decide_eq_true same

def float64 : Codec Rat where
  encode := .num
  decode := Json.float64
  zero := 0
  empty q := q = 0
  decode_encode _ := rfl
  empty_zero _ same := of_decide_eq_true same

def flag : Codec (Option Bool) where
  encode
    | none => .null
    | some b => .bool b
  decode := Json.pointer Json.boolean false
  zero := none
  empty := Option.isNone
  decode_encode
    | none => rfl
    | some _ => rfl
  empty_zero _ same := Option.isNone_iff_eq_none.mp same

variable (c : Codec α)

theorem elements_map (items : List α) :
    Json.elements c.decode c.zero [] (items.map c.encode) = ⟨items,true⟩ := by
  induction items with
  | nil => rfl
  | cons a rest ih => simp [Json.elements,c.decode_encode,ih]

def slice : Codec (List α) where
  encode items := .arr (items.map c.encode)
  decode := Json.slice c.decode c.zero
  zero := []
  empty := List.isEmpty
  decode_encode := elements_map c
  empty_zero _ same := isEmpty_iff.mp same

theorem entries_fold (entries : List (String × α)) (d : Dict α) :
    (entries.map (fun e => (e.1,c.encode e.2))).foldl (Json.entryStep c.decode c.zero) ⟨d,true⟩ =
      ⟨entries.foldl (fun d e => d.insert e.1 e.2) d,true⟩ := by
  induction entries generalizing d with
  | nil => rfl
  | cons e rest ih => simp [Json.entryStep,c.decode_encode,ih]

def dict : Codec (Dict α) where
  encode m := .obj (m.entries.map (fun e => (e.1,c.encode e.2)))
  decode := Json.dict c.decode c.zero
  zero := Dict.empty
  empty m := m.entries.isEmpty
  decode_encode m := by
    show (m.entries.map (fun e => (e.1,c.encode e.2))).foldl (Json.entryStep c.decode c.zero) ⟨Dict.empty,true⟩ = _
    rw [entries_fold,Dict.insert_entries]
  empty_zero m same := by
    apply Dict.ext
    simpa [Dict.empty] using same

@[simp] theorem string_zero : string.zero = "" := rfl
@[simp] theorem boolean_zero : boolean.zero = false := rfl
@[simp] theorem int64_zero : int64.zero = 0 := rfl
@[simp] theorem float64_zero : float64.zero = 0 := rfl
@[simp] theorem flag_zero : flag.zero = none := rfl
@[simp] theorem slice_zero : (slice c).zero = [] := rfl
@[simp] theorem dict_zero : (dict c).zero = Dict.empty := rfl

end Codec

structure Field (σ : Type u) where
  name : String
  value : σ → Option Json

namespace Field
variable {σ α : Type u}

def always (name : String) (c : Codec α) (get : σ → α) : Field σ := ⟨name,fun s => some (c.encode (get s))⟩

def omitempty (name : String) (c : Codec α) (get : σ → α) : Field σ :=
  ⟨name,fun s => if c.empty (get s) then none else some (c.encode (get s))⟩

def Writes (f : Field σ) (c : Codec α) (get : σ → α) : Prop :=
  ∀ s, f.value s = some (c.encode (get s)) ∨ f.value s = none ∧ get s = c.zero

theorem always_writes (name : String) (c : Codec α) (get : σ → α) : (always name c get).Writes c get :=
  fun _ => .inl rfl

theorem omitempty_writes (name : String) (c : Codec α) (get : σ → α) : (omitempty name c get).Writes c get := by
  intro s
  grind [omitempty,c.empty_zero]

end Field

namespace Json
variable {σ α : Type u}

variable (fields : List (Field σ))

def members (s : σ) : List (String × Json) :=
  fields.filterMap (fun f => (f.value s).map (fun v => (f.name,v)))

def marshal (s : σ) : Json := .obj (members fields s)

/-- No two fields have a name that a reader could take for the other. -/
def Distinct : Prop := (fields.map (fun f => foldName f.name)).Nodup

instance (fields : List (Field σ)) : Decidable (Distinct fields) := inferInstanceAs (Decidable (List.Nodup _))

variable {name : String}

theorem fold_others {decode : Decoder α} {ms : List (String × Json)}
    (others : ∀ m ∈ ms, foldName m.1 ≠ foldName name) (d : Decoded α) :
    ms.foldl (fieldStep name decode) d = d := by
  induction ms generalizing d with
  | nil => rfl
  | cons m rest ih =>
    grind [fieldStep]

variable {fields}

theorem members_others (others : ∀ f ∈ fields, foldName f.name ≠ foldName name) (s : σ) :
    ∀ m ∈ members fields s, foldName m.1 ≠ foldName name := by
  intro m member
  obtain ⟨f,inside,written⟩ := mem_filterMap.mp member
  grind [Option.map_eq_some_iff]

theorem field_absent (others : ∀ f ∈ fields, foldName f.name ≠ foldName name) (decode : Decoder α) (zero : α) (s : σ) :
    field name decode zero (marshal fields s) = ⟨zero,true⟩ :=
  fold_others (members_others others s) _

variable {c : Codec α} {get : σ → α}

variable (distinct : Distinct fields)
include distinct

theorem field_marshal {f : Field σ} (member : f ∈ fields) (writes : f.Writes c get) (s : σ) :
    field f.name c.decode c.zero (marshal fields s) = ⟨get s,true⟩ := by
  obtain ⟨before,after,rfl⟩ := append_of_mem member
  have apart := distinct
  simp only [Distinct,map_append,map_cons,nodup_append,nodup_cons,mem_map] at apart
  obtain ⟨_,⟨noneAfter,_⟩,cross⟩ := apart
  have first :=
    fun g inside => cross _ ⟨g,inside,rfl⟩ _ mem_cons_self
  have last :=
    fun g inside same => noneAfter ⟨g,inside,same⟩
  have split : members (before ++ f :: after) s =
      members before s ++ (((f.value s).map (fun v => (f.name,v))).toList ++ members after s) := by
    grind [members]
  show (members _ s).foldl _ _ = _
  rw [split,foldl_append,foldl_append,fold_others (members_others first s),
    fold_others (members_others last s)]
  cases writes s with
  | inl written => simp [written,fieldStep,c.decode_encode]
  | inr left => simp [left.1,left.2]

theorem always_read (i : Nat) (place : fields[i]? = some (.always name c get)) (s : σ) :
    field name c.decode c.zero (marshal fields s) = ⟨get s,true⟩ :=
  field_marshal distinct (mem_of_getElem? place) (Field.always_writes name c get) s

theorem omitempty_read (i : Nat) (place : fields[i]? = some (.omitempty name c get)) (s : σ) :
    field name c.decode c.zero (marshal fields s) = ⟨get s,true⟩ :=
  field_marshal distinct (mem_of_getElem? place) (Field.omitempty_writes name c get) s

end Json
end TunnelCat
