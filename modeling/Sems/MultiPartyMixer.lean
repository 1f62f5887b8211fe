import Sems.OrdMap
import Sems.SampleArray

/-!
# The mixer of a conference

`AmMultiPartyMixer` (`core/AmMultiPartyMixer.cpp`) : every channel of a conference puts its frames,
and gets the sum of the frames of the others. The sum of all channels is kept in `mixed_channel`,
and a channel gets the difference. Frames are put `MIXER_DELAY` ahead of the system time.

The samples of one sample rate are in one `MixerBufferState`. A channel gets the first of them
whose `last_ts` is not before the end of what is read. The system time counts 102400 units a second
and has 48 bits, `last_ts` has 32. The packet of `getChannelPacket` is not yet scaled to 16 bit.
-/

namespace Sems

/-- Units of the system time in a second. -/
def WALLCLOCK_RATE : ℕ := 102400

/-- How long what is put waits to be read. -/
def MIXER_DELAY_MS : ℕ := 20

/-- The delay in units of the system time. -/
def MIXER_DELAY : ℕ := MIXER_DELAY_MS * WALLCLOCK_RATE / 1000

/-- The bound for states made by reading. -/
def MAX_BUFFER_STATES : ℕ := 50

/-- Bytes of an audio buffer. -/
def AUDIO_BUFFER_SIZE : ℕ := 2 ^ 13

/-- The comparison of system timestamps. -/
def sysTsLess (l r : ℕ) : Bool :=
  2 ^ 47 < (l + 2 ^ 64 - r) % 2 ^ 48

/-- `samples` at a sample rate as a duration of the system time. -/
def sysDuration (srate samples : ℕ) : ℕ :=
  samples * (WALLCLOCK_RATE / 100) / (srate / 100)

/-- A system timestamp in samples. The numbers have 64 bits. -/
def userTs (srate ts : ℕ) : ℕ :=
  ts * (srate / 100) % 2 ^ 64 / (WALLCLOCK_RATE / 100)

/-- `mix_add` : a frame is added to the mix. -/
def mixAdd (src1 : List (BitVec 32)) (src2 : List (BitVec 16)) : List (BitVec 32) :=
  List.zipWith (fun x y => x + y.signExtend 32) src1 src2

/-- `mix_sub` : the own frame is taken out of the mix. -/
def mixSub (src1 : List (BitVec 32)) (src2 : List (BitVec 16)) : List (BitVec 32) :=
  List.zipWith (fun x y => x - y.signExtend 32) src1 src2

/-- A new array. What it holds is not read before the first `put`. -/
def SampleArray.new (T : Type*) [Zero T] : SampleArray T :=
  ⟨fun _ => 0, 0, false⟩

/-- The channels and their mix at one rate. -/
structure MixerBufferState where
  sampleRate : ℕ
  lastTs : BitVec 32
  channels : OrdMap ℕ (SampleArray (BitVec 16))
  mixedChannel : SampleArray (BitVec 32)

namespace MixerBufferState

variable (st : MixerBufferState)

/-- A channel that is there already is kept. -/
def addChannel (id : ℕ) : MixerBufferState :=
  { st with channels := st.channels.emplace id (.new _) }

/-- Every channel of the mixer gets an array. -/
def fixChannels (ids : List ℕ) : MixerBufferState :=
  ids.foldl addChannel st

/-- A state with empty arrays. -/
def new (sampleRate : ℕ) (ids : List ℕ) : MixerBufferState :=
  fixChannels ⟨sampleRate, 0, OrdMap.empty, .new _⟩ ids

/-- A frame of a channel is put. -/
def putFrame (srate id systemTs : ℕ) (buffer : List (BitVec 16)) : MixerBufferState :=
  match st.channels.find? id with
  | none => st
  | some channel =>
    let putTs := (systemTs + MIXER_DELAY) % 2 ^ 64
    let ts := BitVec.ofNat 32 (userTs srate putTs)
    let mixed := mixAdd (st.mixedChannel.get ts buffer.length) buffer
    { st with
      channels := st.channels.insert id (channel.put ts buffer)
      mixedChannel := st.mixedChannel.put ts mixed
      lastTs := BitVec.ofNat 32 (putTs + sysDuration srate buffer.length) }

/-- The mix for a channel. -/
def getFrame (srate id systemTs samples : ℕ) : List (BitVec 32) :=
  match st.channels.find? id with
  | none => List.replicate samples 0
  | some channel =>
    let n := samples * (st.sampleRate / 100) / (srate / 100)
    let ts := BitVec.ofNat 32 (userTs st.sampleRate systemTs)
    mixSub (st.mixedChannel.get ts n) (channel.get ts n)

end MixerBufferState

/-- The mixer. The channel ids are in ascending order, `samplerates` has a rate for every
channel. -/
structure AmMultiPartyMixer where
  sampleratemap : OrdMap ℕ ℕ
  samplerates : List ℕ
  channelids : List ℕ
  bufferState : List MixerBufferState

namespace AmMultiPartyMixer

/-- A mixer without channels. -/
def new : AmMultiPartyMixer :=
  ⟨OrdMap.empty, [], [], []⟩

variable (m : AmMultiPartyMixer)

/-- The highest rate. -/
def getCurrentSampleRate : Option ℕ :=
  m.samplerates.max?

/-- The id of the next channel. -/
def nextId : ℕ :=
  match m.channelids.getLast? with
  | some id => id + 1
  | none => 0

/-- `AddChannel` : the channel joins the first state with a rate that is high enough. -/
def addChannel (m : AmMultiPartyMixer) (rate : ℕ) : AmMultiPartyMixer where
  sampleratemap := m.sampleratemap.emplace m.nextId rate
  samplerates := rate :: m.samplerates
  channelids := m.channelids ++ [m.nextId]
  bufferState :=
    match m.bufferState.findIdx? fun st => rate ≤ st.sampleRate with
    | some i => m.bufferState.modify i fun st => st.addChannel m.nextId
    | none => m.bufferState

/-- The buffer states, and the place of the one for the rate. -/
def findOrCreateBufferState (rate : ℕ) : List MixerBufferState × ℕ :=
  match m.bufferState.findIdx? fun st => st.sampleRate = rate with
  | some i => (m.bufferState.modify i fun st => st.fixChannels m.channelids, i)
  | none => (m.bufferState ++ [.new rate m.channelids], m.bufferState.length)

/-- The buffer states, and the place of the one that is read. -/
def findBufferStateForReading (rate lastTs : ℕ) : List MixerBufferState × ℕ :=
  match m.bufferState.findIdx? fun st =>
    sysTsLess lastTs st.lastTs.toNat || lastTs = st.lastTs.toNat with
  | some i => (m.bufferState.modify i fun st => st.fixChannels m.channelids, i)
  | none =>
    if m.bufferState.length < MAX_BUFFER_STATES then
      (m.bufferState ++ [.new rate m.channelids], m.bufferState.length)
    -- a conference without a speaker
    else (m.bufferState, m.bufferState.length - 1)

/-- The states at the front that are over and whose rate is not the current one are dropped. -/
def cleanupBufferStates (lastTs : ℕ) : AmMultiPartyMixer :=
  { m with
    bufferState := m.bufferState.dropWhile fun st =>
      st.lastTs ≠ 0 && st.lastTs.toNat < lastTs && m.getCurrentSampleRate ≠ some st.sampleRate }

/-- `PutChannelPacket` : a frame at the current rate. -/
def putChannelPacket (id systemTs : ℕ) (buffer : List (BitVec 16)) : AmMultiPartyMixer :=
  match m.getCurrentSampleRate with
  | none => m
  | some srate =>
    if buffer = [] ∨ srate < 100 then m
    else
      let (states, i) := m.findOrCreateBufferState srate
      { m with bufferState := states.modify i fun st => st.putFrame srate id systemTs buffer }

/-- The packet before it is scaled. -/
def getChannelPacket (id systemTs samples : ℕ) : AmMultiPartyMixer × List (BitVec 32) :=
  match m.getCurrentSampleRate with
  | none => (m, [])
  | some srate =>
    if samples = 0 ∨ srate < 100 then (m, [])
    else
      let lastTs := (systemTs + sysDuration srate samples) % 2 ^ 32
      let (states, i) := m.findBufferStateForReading srate lastTs
      let packet :=
        match states[i]? with
        | some st => st.getFrame srate id systemTs samples
        | none => []
      (cleanupBufferStates { m with bufferState := states } lastTs, packet)

end AmMultiPartyMixer

end Sems
