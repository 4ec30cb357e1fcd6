import TunnelCat.DhtNode
import TunnelCat.LogFiles

/-!
The relays that a DHT node knows (`relayStore` in `dht/dht_node.go`): signed entries, one for each
node id, of which a later one replaces an earlier one.

The store ends with the latest valid entry of each id, in whatever order the entries come
(`store_converges`), and a signature binds the fields it signs (`signature_binds`). The id is a text
though, and two texts that differ in the case of their letters are one key: the store has one
entry a key exactly as long as it accepts no second spelling (`one_per_key_iff`).
-/
namespace TunnelCat.RelayStore
open List
open ByteStrings (GoString ascii)
open LogFiles NetIP Runs
open DhtNode (hexDecode)

structure RelayEntry where
  nodeID : GoString
  addr : GoString
  countryCode : GoString
  ts : Int64
  sig : GoString
deriving DecidableEq

def relayEntryPayload (e : RelayEntry) : GoString :=
  e.nodeID ++ 0x7c :: (e.addr ++ 0x7c :: (e.countryCode ++ 0x7c :: formatInt e.ts.toInt))

/-- The base64 of signatures and Ed25519. -/
structure Scheme where
  decodeSig : GoString → Option (List UInt8)
  verify : List UInt8 → GoString → List UInt8 → Bool

def decodeString (s : GoString) : Option (List UInt8) := hexDecode (s.map (fun b => Char.ofNat b.toNat))

inductive RelayError
  | badLength (n : Nat)
  | notHex
  | badSigEncoding
  | badSignature
  | staleOrFuture (ts age : Int64)
deriving DecidableEq

variable (S : Scheme)

def verifyRelayEntry (e : RelayEntry) : Except RelayError Unit :=
  if e.nodeID.length ≠ 64 then throw (.badLength e.nodeID.length)
  else match decodeString e.nodeID, S.decodeSig e.sig with
    | none, _ => throw .notHex
    | some _, none => throw .badSigEncoding
    | some key, some sig =>
      if sig.length ≠ 64 then throw .badSigEncoding
      else if S.verify key (relayEntryPayload e) sig then .ok () else throw .badSignature

abbrev Entries := Table GoString RelayEntry

def relayTTL : Int64 := 120

def fresh (now : Int64) (e : RelayEntry) : Bool := ¬ (now - e.ts > relayTTL ∨ now - e.ts < -relayTTL)

def store (entries : Entries) (now : Int64) (e : RelayEntry) : Entries × Except RelayError Unit :=
  match verifyRelayEntry S e with
  | .error err => (entries,throw err)
  | .ok () =>
    if fresh now e then
      match entries.lookup e.nodeID with
      | some existing => if existing.ts ≥ e.ts then (entries,.ok ()) else (entries.insert e.nodeID e,.ok ())
      | none => (entries.insert e.nodeID e,.ok ())
    else (entries,throw (.staleOrFuture e.ts (now - e.ts)))

variable (s : Entries) (offer : Int64 × RelayEntry)

def step (entries : Entries) (offer : Int64 × RelayEntry) : Entries × Except RelayError Unit := store S entries offer.1 offer.2

def accepted (now : Int64) (e : RelayEntry) : Bool := (verifyRelayEntry S e).isOk && fresh now e

variable {S} {now : Int64} {e : RelayEntry} {t : Entries} {id : GoString}

theorem lookup_store : (store S t now e).1.lookup id =
    if accepted S now e ∧ id = e.nodeID ∧ ∀ old, t.lookup id = some old → old.ts < e.ts then some e else t.lookup id := by
  unfold store accepted
  cases verifyRelayEntry S e with
  | error err => simp [Except.toBool]
  | ok u =>
    by_cases recent : fresh now e
    · by_cases same : id = e.nodeID
      · subst same
        cases found : t.lookup e.nodeID with
        | none => simp [recent,Except.toBool]
        | some old =>
          by_cases later : old.ts ≥ e.ts
          · simp [recent,found,later]
          · simp [recent,later,Except.toBool]
      grind
    · simp [recent]

variable (S) (now)

def storeAll (offered : List RelayEntry) : Entries := final (step S) ∅ (offered.map (fun e => (now,e)))

def candidates (offered : List RelayEntry) (id : GoString) : List RelayEntry :=
  offered.filter (fun e => accepted S now e ∧ e.nodeID = id)

def Latest (offered : List RelayEntry) (id : GoString) (e : RelayEntry) : Prop :=
  e ∈ candidates S now offered id ∧ ∀ other ∈ candidates S now offered id, other.ts ≤ e.ts

variable {S} {now}

theorem lookup_storeAll (offered : List RelayEntry) (id : GoString) :
    (∀ e, (storeAll S now offered).lookup id = some e → Latest S now offered id e) ∧
    ((storeAll S now offered).lookup id = none → candidates S now offered id = []) := by
  induction offered using reverseRecOn with
  | nil => simp [storeAll,candidates]
  | append_singleton before x ih =>
    have more : candidates S now (before ++ [x]) id =
        candidates S now before id ++ if accepted S now x ∧ x.nodeID = id then [x] else [] := by
      simp [candidates,filter_singleton]
    have last : (storeAll S now (before ++ [x])).lookup id = (store S (storeAll S now before) now x).1.lookup id := by
      rw [storeAll,map_append,map_singleton,final_snoc]
      rfl
    rw [last,lookup_store]
    by_cases taken : accepted S now x ∧ x.nodeID = id
    · simp only [Latest,more]
      cases found : (storeAll S now before).lookup id with
      | none =>
        have empty := ih.2 found
        simp [taken,empty]
      | some old =>
        obtain ⟨member,greatest⟩ := ih.1 old found
        grind
    · have same : candidates S now (before ++ [x]) id = candidates S now before id := by simp [more,taken]
      have kept : ¬ (accepted S now x ∧ id = x.nodeID ∧ ∀ old, (storeAll S now before).lookup id = some old → old.ts < x.ts) :=
        fun h => taken ⟨h.1,h.2.1.symm⟩
      rw [if_neg kept]
      simp only [Latest,same]
      exact ih

theorem latest_unique {offered : List RelayEntry} {e' : RelayEntry}
    (agree : ∀ a ∈ offered, ∀ b ∈ offered, a.nodeID = b.nodeID → a.ts = b.ts → a = b)
    (one : Latest S now offered id e) (two : Latest S now offered id e') : e = e' := by
  have first := mem_filter.mp one.1
  have second := mem_filter.mp two.1
  simp only [decide_eq_true_eq] at first second
  refine agree e first.1 e' second.1 (first.2.2.trans second.2.2.symm) ?_
  exact Int64.le_antisymm (two.2 e one.1) (one.2 e' two.1)

theorem lookup_storeAll_iff {offered : List RelayEntry}
    (agree : ∀ a ∈ offered, ∀ b ∈ offered, a.nodeID = b.nodeID → a.ts = b.ts → a = b) :
    (storeAll S now offered).lookup id = some e ↔ Latest S now offered id e := by
  refine ⟨(lookup_storeAll offered id).1 e,?_⟩
  intro latest
  cases found : (storeAll S now offered).lookup id with
  | none => exact absurd latest.1 (by simp [(lookup_storeAll offered id).2 found])
  | some e' => rw [latest_unique agree latest ((lookup_storeAll offered id).1 e' found)]

theorem latest_congr {offered other : List RelayEntry} (same : ∀ x, x ∈ other ↔ x ∈ offered) :
    Latest S now other id e ↔ Latest S now offered id e := by
  simp [Latest,candidates,same]

theorem fresh_iff (inside : now.toInt.natAbs + 120 < 2 ^ 63) (e : RelayEntry) :
    fresh now e ↔ (now.toInt - e.ts.toInt).natAbs ≤ 120 := by
  have low := e.ts.le_toInt
  have high := e.ts.toInt_lt
  simp only [fresh,relayTTL,Int64.lt_iff_toInt_lt,Int64.toInt_sub,Int.bmod_def,decide_eq_true_eq]
  simp
  omega

theorem store_converges (S : Scheme) (now : Int64) (offered : List RelayEntry)
    (agree : ∀ a ∈ offered, ∀ b ∈ offered, a.nodeID = b.nodeID → a.ts = b.ts → a = b) :
    (∀ id e, (storeAll S now offered).lookup id = some e ↔ Latest S now offered id e) ∧
    (∀ other : List RelayEntry, (∀ x, x ∈ other ↔ x ∈ offered) →
      ∀ id, (storeAll S now other).lookup id = (storeAll S now offered).lookup id) ∧
    (now.toInt.natAbs + 120 < 2 ^ 63 → ∀ e, fresh now e ↔ (now.toInt - e.ts.toInt).natAbs ≤ 120) := by
  refine ⟨fun id e => lookup_storeAll_iff agree,?_,fresh_iff⟩
  intro other same id
  have agree' :=
    fun a first b second => agree a ((same a).mp first) b ((same b).mp second)
  ext e
  rw [lookup_storeAll_iff agree,lookup_storeAll_iff agree',latest_congr same]

theorem verified (valid : verifyRelayEntry S e = .ok ()) : e.nodeID.length = 64 ∧
    ∃ key sig, decodeString e.nodeID = some key ∧ S.decodeSig e.sig = some sig ∧ S.verify key (relayEntryPayload e) sig := by
  unfold verifyRelayEntry at valid
  split_ifs at valid with long
  split at valid
  · cases valid
  · cases valid
  · rename_i key sig decoded read
    split_ifs at valid with short good
    exact ⟨not_not.mp long,key,sig,decoded,read,good⟩

theorem hexDecode_chars : ∀ {s : List Char} {key : List UInt8}, hexDecode s = some key → ∀ c ∈ s, (hexValue c).isSome
  | [], _, _ => by simp
  | [_], _, decoded => by simp [hexDecode] at decoded
  | a :: b :: rest, key, decoded => by
    unfold hexDecode at decoded
    split at decoded
    · rename_i high low bytes first second more
      intro c mem
      rcases mem_cons.mp mem with rfl | mem
      · simp [first]
      · rcases mem_cons.mp mem with rfl | mem
        · simp [second]
        · exact hexDecode_chars more c mem
    · cases decoded

theorem bar_nodeID {key : List UInt8} (decoded : decodeString id = some key) : 0x7c ∉ id := by
  intro mem
  have digit := hexDecode_chars decoded _ (mem_map_of_mem mem)
  exact absurd digit (by decide)

theorem bar_formatInt (x : Int) : 0x7c ∉ formatInt x := by
  have none (n : Nat) : 0x7c ∉ decimal n := fun mem => absurd (decimal_digit mem) (by decide)
  unfold formatInt
  split_ifs
  · simp [none]
  · exact none _

theorem cut_inj {a a' rest rest' : GoString} (first : 0x7c ∉ a) (second : 0x7c ∉ a')
    (same : a ++ 0x7c :: rest = a' ++ 0x7c :: rest') : a = a' ∧ rest = rest' := by
  induction a generalizing a' with
  | nil =>
    cases a' with
    | nil => simpa using same
    | cons b more =>
      grind
  | cons b more ih =>
    cases a' with
    | nil =>
      grind
    | cons b' more' =>
      grind

theorem signature_binds (one : ∀ key key' m m' sig, S.verify key m sig → S.verify key' m' sig → m = m')
    {e e' : RelayEntry} (valid : verifyRelayEntry S e = .ok ()) (valid' : verifyRelayEntry S e' = .ok ())
    (addr : 0x7c ∉ e.addr) (country : 0x7c ∉ e.countryCode) (same : S.decodeSig e.sig = S.decodeSig e'.sig) :
    e.nodeID = e'.nodeID ∧ e.addr = e'.addr ∧ e.countryCode = e'.countryCode ∧ e.ts = e'.ts := by
  obtain ⟨-,key,sig,decoded,read,good⟩ := verified valid
  obtain ⟨-,key',sig',decoded',read',good'⟩ := verified valid'
  obtain rfl : sig = sig' := by simpa [read,read'] using same
  have payload := one _ _ _ _ _ good good'
  simp only [relayEntryPayload] at payload
  obtain ⟨ids,rest⟩ := cut_inj (bar_nodeID decoded) (bar_nodeID decoded') payload
  -- the other entry has no more bars than this one
  have bars := congrArg (List.count 0x7c) rest
  simp only [count_append,count_cons_self,count_eq_zero.mpr addr,count_eq_zero.mpr country,
    count_eq_zero.mpr (bar_formatInt _)] at bars
  have addr' : 0x7c ∉ e'.addr := count_eq_zero.mp (by omega)
  have country' : 0x7c ∉ e'.countryCode := count_eq_zero.mp (by omega)
  obtain ⟨addrs,rest⟩ := cut_inj addr addr' rest
  obtain ⟨countries,times⟩ := cut_inj country country' rest
  exact ⟨ids,addrs,countries,Int64.toInt_inj.mp (formatInt_injective times)⟩

def lower (b : UInt8) : UInt8 := if 0x41 ≤ b ∧ b ≤ 0x5a then b + 0x20 else b

def OnePerKey (t : Entries) : Prop := ∀ id id' e e', t.lookup id = some e → t.lookup id' = some e' →
  decodeString e.nodeID = decodeString e'.nodeID → e = e'

/-- An entry is not accepted under another spelling of a stored id. -/
def OneSpelling (S : Scheme) (t : Entries) (offer : Int64 × RelayEntry) : Prop :=
  accepted S offer.1 offer.2 → ∀ id e, t.lookup id = some e → id.map lower = offer.2.nodeID.map lower → id = offer.2.nodeID

def Keyed (t : Entries) : Prop := ∀ id e, t.lookup id = some e → e.nodeID = id ∧ (decodeString id).isSome

def digit (d : Nat) : UInt8 := (ascii "0123456789abcdef").getD d 0

theorem hexValue_lower (b : UInt8) : hexValue (Char.ofNat (lower b).toNat) = hexValue (Char.ofNat b.toNat) ∧
    ∀ d, hexValue (Char.ofNat b.toNat) = some d → d < 16 ∧ lower b = digit d := by
  have all : ∀ n : Fin 256, hexValue (Char.ofNat (lower (UInt8.ofFin n)).toNat) = hexValue (Char.ofNat n.val) ∧
      ∀ d ∈ hexValue (Char.ofNat n.val), d < 16 ∧ lower (UInt8.ofFin n) = digit d := by decide +kernel
  exact all b.toFin

theorem decodeString_lower : ∀ a : GoString, decodeString (a.map lower) = decodeString a
  | [] => rfl
  | [_] => rfl
  | a :: b :: rest => by
    have more := decodeString_lower rest
    grind [decodeString,hexDecode,hexValue_lower]

theorem lower_of_decode : ∀ {a : GoString} {key : List UInt8}, decodeString a = some key →
    a.map lower = key.flatMap (fun k => [digit (k.toNat / 16),digit (k.toNat % 16)])
  | [], key, decoded => by simp_all [decodeString,hexDecode]
  | [_], key, decoded => by simp [decodeString,hexDecode] at decoded
  | a :: b :: rest, key, decoded => by
    simp only [decodeString,hexDecode,map_cons] at decoded
    split at decoded
    · rename_i high low bytes first second more
      obtain ⟨small,upper⟩ := (hexValue_lower a).2 high first
      obtain ⟨small',lower'⟩ := (hexValue_lower b).2 low second
      have whole : (UInt8.ofNat (high * 16 + low)).toNat = high * 16 + low := UInt8.toNat_ofNat_of_lt' (by show _ < 256; omega)
      rw [← Option.some.inj decoded,flatMap_cons,whole,show (high * 16 + low) / 16 = high by omega,
        show (high * 16 + low) % 16 = low by omega,← lower_of_decode more]
      simp [upper,lower']
    · cases decoded

theorem same_key_iff {a b : GoString} (hex : (decodeString a).isSome) :
    decodeString a = decodeString b ↔ a.map lower = b.map lower := by
  constructor
  · intro same
    obtain ⟨key,decoded⟩ := Option.isSome_iff_exists.mp hex
    rw [lower_of_decode decoded,lower_of_decode (same ▸ decoded)]
  · intro same
    rw [← decodeString_lower a,same,decodeString_lower]

theorem accepted_hex (taken : accepted S now e) : (decodeString e.nodeID).isSome := by
  unfold accepted at taken
  cases valid : verifyRelayEntry S e with
  | error err => simp [valid,Except.toBool] at taken
  | ok u =>
    obtain ⟨-,key,sig,decoded,-⟩ := verified valid
    simp [decoded]

theorem of_lookup_store {x : RelayEntry} (found : (store S t now e).1.lookup id = some x) :
    t.lookup id = some x ∨ accepted S now e ∧ id = e.nodeID ∧ x = e := by
  grind [lookup_store]

theorem lookup_store_of (found : t.lookup id = some e) {x : RelayEntry} (other : id ≠ x.nodeID) :
    (store S t now x).1.lookup id = some e := by
  rw [lookup_store,if_neg (fun taken => other taken.2.1),found]

theorem lookup_store_self (taken : accepted S now e) : ∃ x, (store S t now e).1.lookup e.nodeID = some x := by
  rw [lookup_store]
  split_ifs with replaced
  · exact ⟨e,rfl⟩
  grind

theorem keyed_step (keyed : Keyed s) : Keyed (step S s offer).1 := by
  intro id e found
  rcases of_lookup_store found with old | ⟨taken,same,rfl⟩
  · exact keyed id e old
  · rw [same]
    exact ⟨rfl,accepted_hex taken⟩

theorem one_step (one : OnePerKey s) (keyed : Keyed s)
    (spelling : OneSpelling S s offer) : OnePerKey (step S s offer).1 := by
  have clash {id : GoString} {e : RelayEntry} (taken : accepted S offer.1 offer.2) (old : s.lookup id = some e)
      (same : decodeString e.nodeID = decodeString offer.2.nodeID) : id = offer.2.nodeID := by
    obtain ⟨own,hex⟩ := keyed id e old
    rw [own,same_key_iff hex] at same
    exact spelling taken id e old same
  intro id id' e e' found found' same
  have one_id {id : GoString} {x y : RelayEntry} (first : (step S s offer).1.lookup id = some x)
      (second : (step S s offer).1.lookup id = some y) : x = y := Option.some.inj (first.symm.trans second)
  rcases of_lookup_store found with old | ⟨taken,here,rfl⟩
  · rcases of_lookup_store found' with old' | ⟨taken,here,rfl⟩
    · exact one id id' e e' old old' same
    grind
  · rcases of_lookup_store found' with old' | ⟨_,here',rfl⟩
    · grind
    · rfl

theorem spelling_of_one (keyed : Keyed s)
    (one : OnePerKey (step S s offer).1) : OneSpelling S s offer := by
  intro taken id e old same
  by_contra other
  obtain ⟨x,self⟩ := lookup_store_self (t := s) taken
  have kept := keyed_step (S := S) s offer keyed
  have old' : (step S s offer).1.lookup id = some e := lookup_store_of old other
  have keys : decodeString e.nodeID = decodeString x.nodeID := by
    rw [(kept id e old').1,(kept _ x self).1,same_key_iff (keyed id e old).2,same]
  have equal := one id offer.2.nodeID e x old' self keys
  exact other ((kept id e old').1.symm.trans ((congrArg RelayEntry.nodeID equal).trans (kept _ x self).1))

theorem one_per_key_iff (S : Scheme) (offers : List (Int64 × RelayEntry)) :
    (∀ first rest, offers = first ++ rest → OnePerKey (final (step S) ∅ first)) ↔
      Along (step S) (OneSpelling S) ∅ offers :=
  states_iff_along (J := Keyed) (fun s i one keyed spelling => ⟨one_step s i one keyed spelling,keyed_step s i keyed⟩)
    (fun s i _ keyed one => spelling_of_one s i keyed one) offers ∅ (by simp [OnePerKey]) (by simp [Keyed])

def sampleScheme : Scheme := ⟨some,fun _ m sig => sig = m.take 64⟩

def sampleEntry (letter : UInt8) (ts : Int64) : RelayEntry :=
  let nodeID := List.replicate 64 letter
  ⟨nodeID,ascii "1.2.3.4:1",ascii "DE",ts,nodeID⟩

theorem store_converges_sample :
    (storeAll sampleScheme 100 [sampleEntry 0x61 50,sampleEntry 0x61 60]).lookup (replicate 64 0x61) = some (sampleEntry 0x61 60) ∧
    Latest sampleScheme 100 [sampleEntry 0x61 50,sampleEntry 0x61 60] (replicate 64 0x61) (sampleEntry 0x61 60) := by
  have latest := (store_converges sampleScheme 100 [sampleEntry 0x61 50,sampleEntry 0x61 60] (by decide)).1
    (replicate 64 0x61) (sampleEntry 0x61 60)
  have stored : (storeAll sampleScheme 100 [sampleEntry 0x61 50,sampleEntry 0x61 60]).lookup (replicate 64 0x61) =
      some (sampleEntry 0x61 60) := by decide +kernel
  exact ⟨stored,latest.mp stored⟩

/-- One key, spelled in two ways, has two entries. -/
theorem one_per_key_spelled : ¬ ∀ (S : Scheme) (offers : List (Int64 × RelayEntry)), OnePerKey (final (step S) ∅ offers) := by
  intro all
  have one := all sampleScheme [(100,sampleEntry 0x61 50),(100,sampleEntry 0x41 50)] (replicate 64 0x61) (replicate 64 0x41)
    (sampleEntry 0x61 50) (sampleEntry 0x41 50) (by decide +kernel) (by decide +kernel) (by decide +kernel)
  exact absurd one (by decide)

def strictScheme : Scheme := ⟨fun s => some (s.filter (· ≠ 10)),fun _ m _ => m = relayEntryPayload (sampleEntry 0x61 50)⟩

def resigned : RelayEntry := { sampleEntry 0x61 50 with sig := List.replicate 64 0x61 ++ [10] }

theorem signature_binds_sample : sampleEntry 0x61 50 ≠ resigned ∧ (sampleEntry 0x61 50).nodeID = resigned.nodeID ∧
    (sampleEntry 0x61 50).addr = resigned.addr ∧ (sampleEntry 0x61 50).countryCode = resigned.countryCode ∧
    (sampleEntry 0x61 50).ts = resigned.ts := by
  refine ⟨by decide,signature_binds (S := strictScheme) ?_ (by decide +kernel) (by decide +kernel) (by decide) (by decide) ?_⟩
  · intro key key' m m' sig first second
    simp only [strictScheme,decide_eq_true_eq] at first second
    rw [first,second]
  · decide +kernel

end TunnelCat.RelayStore
