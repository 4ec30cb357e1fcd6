import TunnelCat.Relay
import TunnelCat.UdpAssoc
import TunnelCat.UploadCodec

/-!
A UDP datagram on its way: the SOCKS5 header that the client takes off (`snc/core/udp_assoc.go`), the
relay frame that it builds and the exit parses (`snc-exit/handler.go`), and the batch in which the exit
answers (`snc/core/tunnel.go` decodes it). The parsers are read by position here, and are those of
`TunnelCat.UdpAssoc` and `TunnelCat.Relay` (`header_eq`, `parse_eq_relay`).
-/
namespace TunnelCat.DatagramCodec
open Bytes Slices Frames NetIP UdpAssoc List
open DhtNode (hexDecode)
open UploadCodec (hexDecode_encode)

def ip4 (bytes : Data) : IP := .four (BitVec.ofNat 32 (beNat bytes))

def ip16 (bytes : Data) : IP := .sixteen (BitVec.ofNat 128 (beNat bytes))

/-- The family and the bytes of an address: `To4`, or `To16`, which has none of a missing address. -/
def familyOf (ip : Option IP) : UInt8 × Data :=
  match ip.map IP.canonical with
  | some (.four addr) => (0x04,beBytes 4 addr.toNat)
  | some (.sixteen addr) => (0x06,beBytes 16 addr.toNat)
  | none => (0x06,[])

section
variable (frag : UInt8) (ip : Option IP) (pkt : Data)

def parsePort (o : Nat) : Option (Except String Parsed) := do
  if o + 2 > pkt.length then return .error "truncated port"
  let port ← uint 2 pkt o
  let payload ← sliceFrom pkt (o + 2)
  return .ok ⟨⟨ip,port⟩,payload,frag⟩

/-- `parseSOCKS5UDPHeader`. Of the error of the resolver only its first word is kept. -/
def parseSOCKS5UDPHeader (lookupHost : Data → List String) (pkt : Data) : Option (Except String Parsed) := do
  if pkt.length < 4 then return .error "udp header too short"
  let frag ← pkt[2]?
  let atyp ← pkt[3]?
  if atyp = atypIPv4 then
    if 4 + 4 > pkt.length then return .error "truncated IPv4"
    parsePort frag (some (ip4 (← slice pkt 4 (4 + 4)))) pkt (4 + 4)
  else if atyp = atypIPv6 then
    if 4 + 16 > pkt.length then return .error "truncated IPv6"
    parsePort frag (some (ip16 (← slice pkt 4 (4 + 16)))) pkt (4 + 16)
  else if atyp = atypDomain then
    if 4 + 1 > pkt.length then return .error "truncated domain length"
    let dlen ← pkt[4]?
    if 5 + dlen.toNat > pkt.length then return .error "truncated domain"
    let host ← slice pkt 5 (5 + dlen.toNat)
    match lookupHost host with
    | [] => return .error "resolve"
    | addr :: _ => parsePort frag (NetIP.parseIP addr.toList) pkt (5 + dlen.toNat)
  else return .error ("unknown atyp 0x" ++ hexEncode [atyp])

theorem parsePort_eq {o : Nat} (inside : o ≤ pkt.length) :
    (parsePort frag ip pkt o).map Except.toOption = some (UdpAssoc.parsePort ip frag (pkt.drop o)) := by
  unfold parsePort UdpAssoc.parsePort
  rw [length_drop]
  by_cases short : o + 2 > pkt.length
  · rw [if_pos short,if_pos (by omega)]
    rfl
  · rw [if_neg short,if_neg (by omega),uint_eq (by omega),sliceFrom_eq (by omega),drop_drop]
    rfl

theorem parseAddress_eq (k : Nat) (make : Data → IP) (e : String) (inside : 4 ≤ pkt.length) :
    (if 4 + k > pkt.length then pure (.error e)
      else (slice pkt 4 (4 + k)).bind fun bytes => parsePort frag (some (make bytes)) pkt (4 + k)).map Except.toOption =
    some (if (pkt.drop 4).length < k then none
      else UdpAssoc.parsePort (some (make ((pkt.drop 4).take k))) frag ((pkt.drop 4).drop k)) := by
  rw [length_drop]
  by_cases short : 4 + k > pkt.length
  · rw [if_pos short,if_pos (by omega)]
    rfl
  · rw [if_neg short,if_neg (by omega),slice_eq (by omega),Option.bind_some,parsePort_eq _ _ _ (by omega),drop_drop]

/-- Read by position, the header is what `TunnelCat.UdpAssoc` reads of it. -/
theorem header_eq (lookupHost : Data → List String) :
    (parseSOCKS5UDPHeader lookupHost pkt).map Except.toOption = some (UdpAssoc.parseSOCKS5UDPHeader lookupHost pkt) := by
  rcases pkt with _ | ⟨rsv,_ | ⟨rsv',_ | ⟨frag,_ | ⟨atyp,rest⟩⟩⟩⟩
  iterate 4 rfl
  generalize pkt_eq : rsv :: rsv' :: frag :: atyp :: rest = pkt
  have behind : pkt.drop 4 = rest := by rw [← pkt_eq]; rfl
  have size : pkt.length = rest.length + 4 := by rw [← pkt_eq]; rfl
  have fragAt : pkt[2]? = some frag := by rw [← pkt_eq]; rfl
  have atypAt : pkt[3]? = some atyp := by rw [← pkt_eq]; rfl
  have reads : UdpAssoc.parseSOCKS5UDPHeader lookupHost pkt =
      UdpAssoc.parseSOCKS5UDPHeader lookupHost (rsv :: rsv' :: frag :: atyp :: rest) := by rw [pkt_eq]
  rw [parseSOCKS5UDPHeader,if_neg (by omega),fragAt,atypAt,reads]
  simp only [UdpAssoc.parseSOCKS5UDPHeader,Option.bind_eq_bind,Option.bind_some]
  by_cases four : atyp = atypIPv4
  · rw [if_pos four,if_pos four,← behind]
    exact parseAddress_eq frag pkt 4 ip4 _ (by omega)
  rw [if_neg four,if_neg four]
  by_cases sixteen : atyp = atypIPv6
  · rw [if_pos sixteen,if_pos sixteen,← behind]
    exact parseAddress_eq frag pkt 16 ip16 _ (by omega)
  rw [if_neg sixteen,if_neg sixteen]
  by_cases domain : atyp = atypDomain
  · rw [if_pos domain,if_pos domain]
    cases rest with
    | nil =>
      rw [if_pos (by simp [size])]
      rfl
    | cons dlen rest =>
      have lengthAt : pkt[4]? = some dlen := by rw [← pkt_eq]; rfl
      have name : pkt.drop 5 = rest := by rw [← pkt_eq]; rfl
      rw [length_cons] at size
      rw [if_neg (by omega),lengthAt,Option.bind_some]
      dsimp only
      by_cases short : rest.length < dlen.toNat
      · rw [if_pos (by omega),if_pos short]
        rfl
      · rw [if_neg (by omega),if_neg short,slice_eq (by omega),Option.bind_some,name]
        cases lookupHost (rest.take dlen.toNat) with
        | nil => rfl
        | cons addr more =>
          rw [parsePort_eq _ _ _ (by omega),← drop_drop,name]
  · rw [if_neg domain,if_neg domain]
    rfl

end

def buildUDPRelayPlain (connIDHex : String) (dst : UDPAddr) (body : Data) : Except String Data :=
  match hexDecode connIDHex.toList with
  | none => .error "invalid connID"
  | some raw =>
    if raw.length ≠ 16 then .error "invalid connID"
    else .ok (raw ++ ((familyOf dst.ip).1 :: ((familyOf dst.ip).2 ++ (beBytes 2 dst.port ++ (beBytes 4 body.length ++ body)))))

structure Relayed where
  connID : String
  dst : UDPAddr
  payload : Data

variable (data plain : Data)

def parseBody (connID : String) (ip : IP) (plain : Data) (o : Nat) : Option (Except String Relayed) := do
  if o + 2 + 4 > plain.length then return .error "truncated port/length"
  let port ← uint 2 plain o
  let bLen ← uint 4 plain (o + 2)
  if o + 6 + bLen > plain.length then
    return .error ("body length overflow: bLen=" ++ toString bLen ++ " remaining=" ++ toString (plain.length - (o + 6)))
  let payload ← slice plain (o + 6) (o + 6 + bLen)
  return .ok ⟨connID,⟨some ip,port⟩,payload⟩

def parseUDPRelayFrame : Option (Except String Relayed) := do
  if plain.length < 16 + 1 + 4 + 2 + 4 then return .error ("frame too short: " ++ toString plain.length ++ " bytes")
  let connID := hexEncode (← sliceTo plain 16)
  let family ← plain[16]?
  if family = 0x04 then
    if 17 + 4 > plain.length then return .error "truncated IPv4"
    parseBody connID (ip4 (← slice plain 17 (17 + 4))) plain 21
  else if family = 0x06 then
    if 17 + 16 > plain.length then return .error "truncated IPv6"
    parseBody connID (ip16 (← slice plain 17 (17 + 16))) plain 33
  else return .error ("unknown family 0x" ++ hexEncode [family])

def encodeDatagrams (frames : List Data) : Data := frames.flatMap (fun f => beBytes 4 f.length ++ f)

def encodeDatagramBatch (frames : List Data) : Data := beBytes 4 frames.length ++ encodeDatagrams frames

def decodeDatagrams (data : Data) (n : Nat) : Nat → Nat → List Data → Option (Except String (List Data))
  | 0, _, frames => return .ok frames
  | left + 1, o, frames => do
    if o + 4 > data.length then return .error ("batch truncated at frame " ++ toString (n - (left + 1)))
    let flen ← uint 4 data o
    if o + 4 + flen > data.length then return .error ("batch frame " ++ toString (n - (left + 1)) ++ " truncated")
    let f ← slice data (o + 4) (o + 4 + flen)
    decodeDatagrams data n left (o + 4 + flen) (frames ++ [f])

def decodeDatagramBatch : Option (Except String (List Data)) := do
  if data.length = 0 then return .ok []
  if data.length < 4 then return .error ("batch too short: " ++ toString data.length ++ " bytes")
  let n ← uint 4 data 0
  decodeDatagrams data n n 4 []

def Relayed.of (f : Relay.RelayFrame) : Relayed := ⟨hexEncode f.connID.bytes,⟨some f.dst.ip,f.dst.port⟩,f.payload⟩

theorem parseBody_eq (connID : ConnID) (ip : IP) {plain : Data} {o : Nat} (inside : o ≤ plain.length) :
    parseBody (hexEncode connID.bytes) ip plain o = some ((Relay.parseBody connID ip (plain.drop o)).map Relayed.of) := by
  unfold parseBody Relay.parseBody
  rw [length_drop]
  by_cases short : o + 2 + 4 > plain.length
  · rw [if_pos short,if_pos (by omega)]
    rfl
  rw [if_neg short,if_neg (by omega),uint_eq (by omega),uint_eq (by omega),drop_drop]
  simp only [Option.bind_eq_bind,Option.bind_some]
  by_cases long : o + 6 + beNat ((plain.drop (o + 2)).take 4) > plain.length
  · rw [if_pos long,if_pos (by omega),Nat.sub_sub]
    rfl
  · rw [if_neg long,if_neg (by omega),slice_eq (by omega),drop_drop]
    rfl

/-- Read by position, the frame is what `TunnelCat.Relay` reads of it. -/
theorem parse_eq_relay : parseUDPRelayFrame plain = some ((Relay.parseUDPRelayFrame plain).map Relayed.of) := by
  unfold parseUDPRelayFrame Relay.parseUDPRelayFrame
  by_cases long : 27 ≤ plain.length
  · have familyAt : plain[16]? = some (plain.getD 16 0) := by
      rw [getD_eq_getElem?_getD,getElem?_eq_getElem (by omega)]
      rfl
    have body := @parseBody_eq ⟨plain.take 16,Relay.relayID_length long⟩
    rw [if_neg (by omega),dif_pos long,sliceTo_eq (by omega),familyAt]
    simp only [Option.bind_eq_bind,Option.bind_some,length_drop]
    split_ifs
    · omega
    · rw [slice_eq (by omega),Option.bind_some,body _ (by omega),drop_drop]
      rfl
    · rfl
    · omega
    · omega
    · rw [slice_eq (by omega),Option.bind_some,body _ (by omega),drop_drop]
      rfl
    · rfl
  · rw [if_pos (by omega),dif_neg long]
    rfl

theorem decodeDatagrams_total (n : Nat) : ∀ left o frames, ∃ r, decodeDatagrams data n left o frames = some r := by
  intro left
  induction left with
  | zero => exact fun o frames => ⟨_,rfl⟩
  | succ left ih =>
    intro o frames
    refine total_guard fun _ => total_bind (uint_total (by omega)) fun flen _ => ?_
    exact total_guard fun _ => total_bind (slice_total (by omega)) fun f _ => ih _ _

theorem decodeDatagramBatch_total : ∃ r, decodeDatagramBatch data = some r :=
  total_guard fun _ => total_guard fun _ => total_bind (uint_total (by omega)) fun n _ => decodeDatagrams_total data n n 4 []

def header (rsv rsv' frag : UInt8) (ip : IP) (port : UInt16) (payload : Data) : Data :=
  match ip with
  | .four addr => rsv :: rsv' :: frag :: atypIPv4 :: (beBytes 4 addr.toNat ++ (beBytes 2 port.toNat ++ payload))
  | .sixteen addr => rsv :: rsv' :: frag :: atypIPv6 :: (beBytes 16 addr.toNat ++ (beBytes 2 port.toNat ++ payload))

theorem ip4_bytes (addr : BitVec 32) : ip4 (beBytes 4 addr.toNat) = .four addr := by
  rw [ip4,beNat_beBytes,Nat.mod_eq_of_lt (show addr.toNat < 256 ^ 4 from addr.isLt),BitVec.ofNat_toNat,BitVec.setWidth_eq]

theorem ip16_bytes (addr : BitVec 128) : ip16 (beBytes 16 addr.toNat) = .sixteen addr := by
  rw [ip16,beNat_beBytes,Nat.mod_eq_of_lt (show addr.toNat < 256 ^ 16 from addr.isLt),BitVec.ofNat_toNat,BitVec.setWidth_eq]

theorem parsePort_read (ip : Option IP) (frag : UInt8) (port : UInt16) (payload : Data) :
    UdpAssoc.parsePort ip frag (beBytes 2 port.toNat ++ payload) = some ⟨⟨ip,port.toNat⟩,payload,frag⟩ := by
  have two := length_beBytes 2 port.toNat
  rw [UdpAssoc.parsePort,if_neg (by rw [length_append,two]; omega),take_left' two,drop_left' two,beNat_beBytes,
    Nat.mod_eq_of_lt (show port.toNat < 256 ^ 2 from port.toNat_lt)]

theorem parse_header (lookupHost : Data → List String) (rsv rsv' frag : UInt8) (ip : IP) (port : UInt16) (payload : Data) :
    UdpAssoc.parseSOCKS5UDPHeader lookupHost (header rsv rsv' frag ip port payload) = some ⟨⟨some ip,port.toNat⟩,payload,frag⟩ := by
  cases ip with
  | four addr =>
    have four := length_beBytes 4 addr.toNat
    have address := ip4_bytes addr
    rw [ip4] at address
    unfold header UdpAssoc.parseSOCKS5UDPHeader
    dsimp only
    rw [if_pos rfl,if_neg (by rw [length_append,four]; omega),take_left' four,drop_left' four,
      address,parsePort_read]
  | sixteen addr =>
    have sixteen := length_beBytes 16 addr.toNat
    have address := ip16_bytes addr
    rw [ip16] at address
    unfold header UdpAssoc.parseSOCKS5UDPHeader
    dsimp only
    rw [if_neg (show atypIPv6 ≠ atypIPv4 by decide),if_pos rfl,if_neg (by rw [length_append,sixteen]; omega),
      take_left' sixteen,drop_left' sixteen,address,parsePort_read]

theorem parseBody_read {connID : String} {ip : IP} {plain body : Data} {o port : Nat}
    (here : plain.drop o = beBytes 2 port ++ (beBytes 4 body.length ++ body)) (portFits : port < 2 ^ 16) :
    parseBody connID ip plain o = some (.ok ⟨connID,⟨some ip,port⟩,body.take (body.length % 2 ^ 32)⟩) := by
  have start := lt_of_drop here (ne_nil_of_length_pos (by simp))
  have size := congrArg List.length here
  simp only [length_drop,length_append,length_beBytes] at size
  have at2 := drop_field here
  have at6 : plain.drop (o + 6) = body := (drop_field at2 : plain.drop (o + 2 + 4) = body)
  have inside : body.length % 2 ^ 32 ≤ body.length := Nat.mod_le _ _
  rw [parseBody,if_neg (by omega),uint_drop here portFits]
  simp only [Option.bind_eq_bind,Option.bind_some]
  rw [uint_drop_mod at2,Option.bind_some,if_neg (by omega),slice_eq (by omega),at6]
  rfl

theorem parse_relay (id : ConnID) (ip : IP) (port : UInt16) (body : Data) :
    ∃ plain, buildUDPRelayPlain (hexEncode id.bytes) ⟨some ip,port.toNat⟩ body = .ok plain ∧
      parseUDPRelayFrame plain =
        some (.ok ⟨hexEncode id.bytes,⟨some ip.canonical,port.toNat⟩,body.take (body.length % 2 ^ 32)⟩) := by
  rw [buildUDPRelayPlain,hexDecode_encode]
  have long := id.length_eq
  refine ⟨_,if_neg (by simpa using long),?_⟩
  rw [familyOf,Option.map_some]
  generalize ip.canonical = short
  rcases short with addr | addr
  all_goals
    generalize plain_eq : id.bytes ++ _ = plain
    obtain ⟨first,family,read,rest,size⟩ := tagged_part plain_eq.symm
    rw [length_beBytes,long] at read rest size
    simp only [length_append,length_beBytes] at size
    rw [long] at first family
    simp only [parseUDPRelayFrame,first,family,read,Option.bind_eq_bind,Option.bind_some]
  · rw [if_neg (by omega),if_pos trivial,if_neg (by omega),ip4_bytes]
    exact parseBody_read rest port.toNat_lt
  · rw [if_neg (by omega),if_neg (by decide),if_pos trivial,if_neg (by omega),ip16_bytes]
    exact parseBody_read rest port.toNat_lt

/-- The frame carries a payload exactly if its length field does. -/
theorem relay_iff (id : ConnID) (ip : IP) (port : UInt16) (body : Data) :
    ∃ plain, buildUDPRelayPlain (hexEncode id.bytes) ⟨some ip,port.toNat⟩ body = .ok plain ∧
      (parseUDPRelayFrame plain = some (.ok ⟨hexEncode id.bytes,⟨some ip.canonical,port.toNat⟩,body⟩) ↔ body.length < 2 ^ 32) := by
  obtain ⟨plain,built,read⟩ := parse_relay id ip port body
  refine ⟨plain,built,?_⟩
  rw [read]
  simp only [Option.some.injEq,Except.ok.injEq,Relayed.mk.injEq,true_and]
  exact take_mod_iff (by decide)

theorem decode_encode_datagrams {data : Data} {n : Nat} : ∀ (left : List Data) (o : Nat) (done : List Data),
    data.drop o = encodeDatagrams left → o ≤ data.length → (∀ f ∈ left, f.length < 2 ^ 32) →
      decodeDatagrams data n left.length o done = some (.ok (done ++ left)) := by
  intro left
  induction left with
  | nil => intro o done _ _ _; simp [decodeDatagrams]
  | cons f rest ih =>
    intro o done here inside small
    have first : data.drop o = beBytes 4 f.length ++ (f ++ encodeDatagrams rest) := by
      rw [here,encodeDatagrams,flatMap_cons,append_assoc]
      rfl
    obtain ⟨flen,read,next⟩ := prefixed_drop first (small f mem_cons_self)
    have size := congrArg List.length first
    simp only [length_drop,length_append,length_beBytes] at size
    rw [length_cons,decodeDatagrams,if_neg (by omega),flen]
    simp only [Option.bind_eq_bind,Option.bind_some]
    rw [if_neg (by omega),read,Option.bind_some,ih _ _ next (by omega) (fun f' later => small f' (mem_cons_of_mem f later))]
    simp

theorem decode_encode_batch {frames : List Data} (few : frames.length < 2 ^ 32) (small : ∀ f ∈ frames, f.length < 2 ^ 32) :
    decodeDatagramBatch (encodeDatagramBatch frames) = some (.ok frames) := by
  generalize data_eq : encodeDatagramBatch frames = data
  have start : data.drop 0 = beBytes 4 frames.length ++ encodeDatagrams frames := data_eq.symm
  have size : data.length = 4 + (encodeDatagrams frames).length := by
    simp only [← data_eq,encodeDatagramBatch,length_append,length_beBytes]
  rw [decodeDatagramBatch,if_neg (by omega),if_neg (by omega),uint_drop start few]
  exact decode_encode_datagrams frames 4 [] (drop_field start) (by omega) small

/-- A datagram that the client sends to an address reaches the exit for the same address in its shortest form,
    with its payload exactly if that has less than 2 ^ 32 bytes; the client reads the answers that the exit
    packed; and no bytes make a parser read out of range. -/
theorem datagram_path (lookupHost : Data → List String) :
    (∀ (id : ConnID) (rsv rsv' frag : UInt8) (ip : IP) (port : UInt16) (payload : Data),
      ∃ parsed plain, parseSOCKS5UDPHeader lookupHost (header rsv rsv' frag ip port payload) = some (.ok parsed) ∧
        parsed.frag = frag ∧ buildUDPRelayPlain (hexEncode id.bytes) parsed.dst parsed.payload = .ok plain ∧
        (parseUDPRelayFrame plain = some (.ok ⟨hexEncode id.bytes,⟨some ip.canonical,port.toNat⟩,payload⟩) ↔
          payload.length < 2 ^ 32)) ∧
    (∀ frames : List Data, frames.length < 2 ^ 32 → (∀ f ∈ frames, f.length < 2 ^ 32) →
      decodeDatagramBatch (encodeDatagramBatch frames) = some (.ok frames)) ∧
    ∀ bytes : Data, (parseSOCKS5UDPHeader lookupHost bytes).isSome ∧ (parseUDPRelayFrame bytes).isSome ∧
      (decodeDatagramBatch bytes).isSome := by
  refine ⟨?_,fun frames few small => decode_encode_batch few small,?_⟩
  · intro id rsv rsv' frag ip port payload
    have read := header_eq (header rsv rsv' frag ip port payload) lookupHost
    rw [parse_header] at read
    obtain ⟨result,parsed,ok⟩ := Option.map_eq_some_iff.mp read
    obtain ⟨plain,built,carried⟩ := relay_iff id ip port payload
    refine ⟨⟨⟨some ip,port.toNat⟩,payload,frag⟩,plain,?_,rfl,built,carried⟩
    cases result with
    | error _ => cases ok
    | ok value => rw [parsed,Option.some.inj ok]
  · intro bytes
    refine ⟨?_,by simp [parse_eq_relay],Option.isSome_iff_exists.mpr (decodeDatagramBatch_total bytes)⟩
    obtain ⟨result,parsed,-⟩ := Option.map_eq_some_iff.mp (header_eq bytes lookupHost)
    simp [parsed]

/-- Of a payload of 2 ^ 32 bytes nothing arrives. -/
theorem long_payload_cut : ¬ ∀ (id : ConnID) (ip : IP) (port : UInt16) (payload : Data), ∃ plain,
    buildUDPRelayPlain (hexEncode id.bytes) ⟨some ip,port.toNat⟩ payload = .ok plain ∧
      parseUDPRelayFrame plain = some (.ok ⟨hexEncode id.bytes,⟨some ip.canonical,port.toNat⟩,payload⟩) := by
  intro all
  have long : (replicate (2 ^ 32) (0 : UInt8)).length = 2 ^ 32 := length_replicate
  obtain ⟨plain,built,read⟩ := all ⟨replicate 16 0,by decide⟩ (.four 0) 53 (replicate (2 ^ 32) 0)
  obtain ⟨plain',built',carried⟩ := relay_iff ⟨replicate 16 0,by decide⟩ (.four 0) 53 (replicate (2 ^ 32) 0)
  obtain rfl := Except.ok.inj (built.symm.trans built')
  rw [carried,long] at read
  exact absurd read (by decide)

end TunnelCat.DatagramCodec
