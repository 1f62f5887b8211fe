import Sems.SdpParse
import Sems.HeaderText

/-!
# Answers to session descriptions

`AmSession::getSdpAnswer` (`core/AmSession.cpp`) accepts the first audio line of an offer that has
the transport RTP/AVP and a port, and rejects the other lines by a zero port. The formats of the
accepted line are those of the offer the payload provider knows (`SdpMedia::calcAnswer`,
`core/AmSdp.cpp`, with the payloads of `core/AmPlugIn.cpp`).
-/

namespace Sems

open NetworkType AddressType MediaType TransProt SdpDirection

/-! ## Supported payloads -/

/-- `amci_payload_t` : a payload of a codec module. Its name is a token, and its rate positive. -/
structure AmciPayload where
  payloadId : BitVec 32
  name : Str
  advertisedSampleRate : BitVec 32
  channels : BitVec 32
  name_ne_nil : name ≠ []
  name_token : ∀ c ∈ name, isToken c = true
  rate_pos : 0 < advertisedSampleRate.toInt

/-- The supported payloads, in the order of their numbers. -/
abbrev PayloadProvider := List AmciPayload

/-- `strcasecmp` gives 0. -/
def sameNoCase (l r : Str) : Bool :=
  l.map lowerChar = r.map lowerChar

def DYNAMIC_PAYLOAD_TYPE_START : ℤ := 96

namespace PayloadProvider

def payload (prov : PayloadProvider) (payloadId : BitVec 32) : Option AmciPayload :=
  prov.find? fun pl => pl.payloadId = payloadId

/-- The number of a supported payload with the name and the rate, and -1 if there is none. -/
def getDynPayload (prov : PayloadProvider) (name : Str) (rate encodingParam : BitVec 32) :
    BitVec 32 :=
  ((prov.find? fun pl => sameNoCase name pl.name && rate = pl.advertisedSampleRate &&
    !(0 < encodingParam.toInt && 0 < pl.channels.toInt && encodingParam ≠ pl.channels)).map
    AmciPayload.payloadId).getD (-1)

/-- The answer's payload for one of the offer. Static numbers come first, and such a payload may
still be known by its name. -/
def answerPayload (prov : PayloadProvider) (p : SdpPayload) : Option SdpPayload :=
  let static :=
    if p.payloadType.toInt < DYNAMIC_PAYLOAD_TYPE_START then prov.payload p.payloadType else none
  match static with
  | some pl => some (.named pl.payloadId pl.name pl.advertisedSampleRate 0)
  | none =>
    if prov.getDynPayload p.encodingName p.clockRate p.encodingParam ≠ -1 then some p else none

end PayloadProvider

/-- `SdpMedia::calcAnswer`. -/
def SdpMedia.calcAnswer (offer : SdpMedia) (prov : PayloadProvider) (answer : SdpMedia) :
    SdpMedia :=
  { answer with
    send := answer.send && offer.recv
    recv := answer.recv && offer.send
    dir := match offer.dir with
      | DirBoth => DirBoth
      | DirActive => DirPassive
      | DirPassive => DirActive
      | DirUndefined => DirUndefined
    payloads := answer.payloads ++ offer.payloads.filterMap prov.answerPayload }

/-! ## The session -/

/-- `codec_priority_cmp` with the names of the configured order. -/
def codecPriorityCmp : List Str → SdpPayload → SdpPayload → Bool
  | [], _, _ => false
  | codec :: order, left, right =>
    if sameNoCase left.encodingName codec && !sameNoCase right.encodingName codec then true
    else if sameNoCase right.encodingName codec then false
    else codecPriorityCmp order left right

/-- `std::stable_sort` with `codec_priority_cmp`. -/
def sortPayloads (order : List Str) (payloads : List SdpPayload) : List SdpPayload :=
  payloads.insertionSort fun a b => codecPriorityCmp order b a = false

/-- A text that can stand for an address. -/
def IsAddress (ip : Str) : Prop :=
  ip ≠ [] ∧ ∀ c ∈ ip, isPlain c = true ∧ c ≠ '/'

/-- What a session answers with : its RTP addresses from the one it uses on, the order of codecs,
the payload provider, and the port and the hold states of its RTP stream. -/
structure AnswerEnv where
  rtpIfs : List Str
  rtpIfs_ne_nil : rtpIfs ≠ []
  rtpIfs_address : ∀ ip ∈ rtpIfs, IsAddress ip
  codecOrder : List Str
  payloadProvider : PayloadProvider
  localPort : BitVec 32
  hold : Bool
  remotehold : Bool

namespace AnswerEnv

def hasAddrType (addrType : AddressType) (ip : Str) : Bool :=
  addrType = AT_NONE || addrType = AT_V4 && ip.contains '.' || addrType = AT_V6 && ip.contains ':'

/-- The first address of a type, or the last one. -/
def advertisedIP (env : AnswerEnv) (addrType : AddressType) : Str :=
  (env.rtpIfs.find? (hasAddrType addrType)).getD (env.rtpIfs.getLastD [])

/-- `AmRtpStream::getSdp`. -/
def getSdp (env : AnswerEnv) (m : SdpMedia) : SdpMedia :=
  { m with
    port := env.localPort
    nports := 0
    transport := TP_RTPAVP
    send := !env.hold
    recv := !env.remotehold
    dir := DirBoth }

/-- `AmRtpAudio::getSdpAnswer`. -/
def streamAnswer (env : AnswerEnv) (offer answer : SdpMedia) : SdpMedia :=
  offer.calcAnswer env.payloadProvider (env.getSdp { answer with type := MT_AUDIO })

/-- No compatible media found. -/
def incompatible (payloads : List SdpPayload) : Bool :=
  match payloads with
  | [] => true
  | [p] => p.encodingName = "telephone-event".toList
  | _ => false

/-- A line that is rejected, with the first payload of the offer and without its name. -/
def rejectMedia (offer : SdpMedia) : SdpMedia :=
  { SdpMedia.new with
    type := offer.type
    transport := offer.transport
    send := false
    recv := false
    payloads := offer.payloads.head?.toList.map fun p =>
      { p with encodingName := [], sdpFormatParameters := [] } }

/-- The line that is accepted, if none was before. -/
def acceptable (m : SdpMedia) : Bool :=
  m.type = MT_AUDIO && m.transport = TP_RTPAVP && m.port ≠ 0

def sorted (env : AnswerEnv) (m : SdpMedia) : SdpMedia :=
  { m with payloads := sortPayloads env.codecOrder m.payloads }

/-- The lines of the answer, and whether none is accepted. The result is `none` for the 488
exception. -/
def answerMedia (env : AnswerEnv) : Bool → List SdpMedia → Option (List SdpMedia × Bool)
  | first, [] => some ([], first)
  | first, m :: ms =>
    if acceptable m && first then
      let answer := env.streamAnswer m .new
      if incompatible answer.payloads then none
      else (env.answerMedia false ms).map fun (rest, first) => (env.sorted answer :: rest, first)
    else (env.answerMedia first ms).map fun (rest, first) =>
      (env.sorted (rejectMedia m) :: rest, first)

/-- `AmSession::getSdpAnswer`, where the attributes and the origin of `answer` stay, but for the
user. -/
def getSdpAnswer (env : AnswerEnv) (offer answer : AmSdp) : Option AmSdp :=
  match env.answerMedia true offer.media with
  | some (media, false) =>
    let addrType := if offer.conn.address = [] then AT_V4 else offer.conn.addrType
    some { answer with
      version := 0
      origin := { answer.origin with user := "sems".toList }
      sessionName := "sems".toList
      conn := { network := NT_IN, addrType, address := env.advertisedIP addrType }
      media }
  | _ => none

end AnswerEnv

end Sems
