import Sems.MultiPartyMixer

/-!
# A conference

In every tick each channel of a conference puts one frame, which continues the one it put before
(`MixerEv`, `EvOk`), and `putFor` says what a channel has put for a time. The first buffer state of
the mixer holds what every channel has put and the sum of it (`StateOk`), and the others hold
nothing (`Silent`).
-/

namespace Sems

open List Function SampleArray
open BitVec (ofInt ofNat)

/-- An increment of the system time, 10 ms. -/
def WC_INC : ℕ := WALLCLOCK_RATE * 10 / 1000

/-- A frame that a channel has put. -/
structure PutEntry where
  channel : ℕ
  systemTs : ℕ
  buffer : List (BitVec 16)

/-- A system timestamp in samples. -/
def sampleTime (rate ts : ℕ) : ℕ :=
  ts * (rate / 100) / (WALLCLOCK_RATE / 100)

/-- The time a frame is put for. -/
def PutEntry.start (rate : ℕ) (e : PutEntry) : ℕ :=
  sampleTime rate (e.systemTs + MIXER_DELAY)

/-- What a channel has put for a time. -/
def putFor (rate : ℕ) : List PutEntry → ℕ → ℕ → BitVec 16
  | [], _, _ => 0
  | e :: log, c, u =>
    if e.channel = c ∧ e.start rate ≤ u ∧ u < e.start rate + e.buffer.length then
      (e.buffer[u - e.start rate]?).getD 0
    else putFor rate log c u

/-- A conference in a tick. Its frames are `dur` increments long, and the channels `done` have put
theirs. -/
structure Conference where
  mixer : AmMultiPartyMixer
  ts : ℕ
  dur : ℕ
  log : List PutEntry
  done : List ℕ

inductive MixerEv where
  | join
  | put (c : ℕ) (buffer : List (BitVec 16))
  | get (c samples : ℕ)
  | tick (dur : ℕ)

namespace Conference

def init (ts dur : ℕ) : Conference :=
  ⟨.new, ts, dur, [], []⟩

section Spec

variable (rate : ℕ) (conf : Conference)

def step : MixerEv → Conference
  | .join => { conf with mixer := conf.mixer.addChannel rate }
  | .put c buffer =>
    { conf with
      mixer := conf.mixer.putChannelPacket c conf.ts buffer
      log := ⟨c, conf.ts, buffer⟩ :: conf.log
      done := c :: conf.done }
  | .get c samples => { conf with mixer := (conf.mixer.getChannelPacket c conf.ts samples).1 }
  | .tick dur => { conf with ts := conf.ts + conf.dur * WC_INC, dur := dur, done := [] }

/-- The frames fit into the buffers. -/
def FrameOk (rate dur : ℕ) : Prop :=
  0 < dur ∧ 2 * (dur * (rate / 100)) ≤ AUDIO_BUFFER_SIZE

/-- Each channel puts one frame in a tick, from its first one on. -/
def EvOk : MixerEv → Prop
  | .join => True
  | .put c buffer => c ∈ conf.mixer.channelids ∧ c ∉ conf.done ∧
      buffer.length = conf.dur * (rate / 100)
  | .get _ _ => True
  | .tick dur => (∀ e ∈ conf.log, e.channel ∈ conf.done) ∧ FrameOk rate dur ∧
      conf.ts + conf.dur * WC_INC < 2 ^ 48

instance (rate dur : ℕ) : Decidable (FrameOk rate dur) :=
  inferInstanceAs (Decidable (_ ∧ _))

instance (rate : ℕ) (conf : Conference) : (ev : MixerEv) → Decidable (conf.EvOk rate ev)
  | .join => inferInstanceAs (Decidable True)
  | .put _ _ => inferInstanceAs (Decidable (_ ∧ _ ∧ _))
  | .get _ _ => inferInstanceAs (Decidable True)
  | .tick _ => inferInstanceAs (Decidable (_ ∧ _ ∧ _))

/-! ## The state of a conference -/

/-- The time of the frames of this tick. -/
def frameStart : ℕ :=
  sampleTime rate (conf.ts + MIXER_DELAY)

/-- Where the samples of a channel end that has put a frame in this tick, or in the one before. -/
def frameEnd (put : Prop) [Decidable put] : ℕ :=
  if put then conf.frameStart rate + conf.dur * (rate / 100) else conf.frameStart rate

/-- The system time up to which frames are put. -/
def putEnd : ℕ :=
  conf.ts + MIXER_DELAY + if conf.done ≠ [] then conf.dur * WC_INC else 0

/-- The sum of what all channels have put for a time. -/
def mix (u : ℕ) : ℤ :=
  ∑ c ∈ conf.mixer.channelids.toFinset, (putFor rate conf.log c u).toInt

/-- The sum of what the other channels have put for a time. -/
def mixOthers (c u : ℕ) : ℤ :=
  ∑ c' ∈ conf.mixer.channelids.toFinset.erase c, (putFor rate conf.log c' u).toInt

/-- What is known of the samples of a channel. -/
def ChannelOk (c : ℕ) (a : SampleArray (BitVec 16)) : Prop :=
  (a.init = false ∧ ∀ e ∈ conf.log, e.channel ≠ c) ∨
    ((∃ e ∈ conf.log, e.channel = c) ∧
      a.Holds (putFor rate conf.log c) (conf.frameEnd rate (c ∈ conf.done)))

/-- What is known of the sum of all channels. -/
def MixOk (a : SampleArray (BitVec 32)) : Prop :=
  (a.init = false ∧ conf.log = []) ∨
    (conf.log ≠ [] ∧
      a.Holds (fun u => ofInt 32 (conf.mix rate u)) (conf.frameEnd rate (conf.done ≠ [])))

/-- The buffer state that holds the conference. -/
structure StateOk (st : MixerBufferState) : Prop where
  sampleRate : st.sampleRate = rate
  channels : ∀ c a, st.channels.find? c = some a → conf.ChannelOk rate c a
  missing : ∀ c, st.channels.find? c = none → ∀ e ∈ conf.log, e.channel ≠ c
  mixed : conf.MixOk rate st.mixedChannel
  last : conf.log ≠ [] → st.lastTs = ofNat 32 conf.putEnd

/-- A buffer state that holds nothing. -/
structure Silent (st : MixerBufferState) : Prop where
  sampleRate : st.sampleRate = rate
  channels : ∀ c a, st.channels.find? c = some a → a.init = false
  mixed : st.mixedChannel.init = false

/-- The first buffer state holds the conference, the others are empty. -/
def StatesOk : List MixerBufferState → Prop
  | [] => conf.log = []
  | st :: others => conf.StateOk rate st ∧ ∀ x ∈ others, Silent rate x

structure ConfOk : Prop where
  frame : FrameOk rate conf.dur
  ts : conf.ts < 2 ^ 48
  ids : ∃ k, conf.mixer.channelids = List.range k ∧ conf.mixer.samplerates = List.replicate k rate
  members : ∀ e ∈ conf.log, e.channel ∈ conf.mixer.channelids
  states : conf.StatesOk rate conf.mixer.bufferState

end Spec

/-! ## Times -/

section Times

variable {rate : ℕ}

theorem rate_cases (hrate : 100 ∣ rate) (hpos : 0 < rate) : ∃ s, rate = 100 * s ∧ 0 < s := by
  obtain ⟨s, rfl⟩ := hrate
  exact ⟨s, rfl, by omega⟩

theorem sampleTime_add (ts k : ℕ) :
    sampleTime rate (ts + k * WC_INC) = sampleTime rate ts + k * (rate / 100) := by
  have hinc : (ts + k * WC_INC) * (rate / 100) =
      ts * (rate / 100) + (WALLCLOCK_RATE / 100) * (k * (rate / 100)) := by
    rw [show WC_INC = WALLCLOCK_RATE / 100 from rfl]
    ring
  rw [sampleTime, hinc, Nat.add_mul_div_left _ _ (by decide)]
  rfl

theorem sampleTime_add_delay {ts : ℕ} :
    sampleTime rate (ts + MIXER_DELAY) = sampleTime rate ts + 2 * (rate / 100) :=
  sampleTime_add ts 2

theorem sysDuration_frame (hrate : 100 ∣ rate) (hpos : 0 < rate) (dur : ℕ) :
    sysDuration rate (dur * (rate / 100)) = dur * WC_INC := by
  obtain ⟨s, rfl, hs⟩ := rate_cases hrate hpos
  rw [sysDuration, Nat.mul_div_cancel_left s (by decide),
    show dur * s * (WALLCLOCK_RATE / 100) = dur * (WALLCLOCK_RATE / 100) * s by ring,
    Nat.mul_div_cancel _ hs]
  rfl

/-- The numbers do not overflow. -/
theorem userTs_eq {ts dur : ℕ} (hframe : FrameOk rate dur) (hts : ts < 2 ^ 48 + MIXER_DELAY) :
    userTs rate ts = sampleTime rate ts := by
  have hs : rate / 100 ≤ 2 ^ 12 := by
    have hle : 1 * (rate / 100) ≤ dur * (rate / 100) := Nat.mul_le_mul_right _ hframe.1
    have hbuf := hframe.2
    rw [show AUDIO_BUFFER_SIZE = 8192 from rfl] at hbuf
    omega
  have hlt : ts * (rate / 100) < 2 ^ 64 := by
    calc ts * (rate / 100) ≤ ts * 2 ^ 12 := Nat.mul_le_mul_left _ hs
      _ < 2 ^ 64 := by rw [show MIXER_DELAY = 2048 from rfl] at hts; omega
  rw [userTs, Nat.mod_eq_of_lt hlt, sampleTime]

end Times

/-! ## Buffer states -/

theorem find?_addChannel (st : MixerBufferState) (id c : ℕ) :
    (st.addChannel id).channels.find? c =
      if c = id ∧ st.channels.find? id = none then some (.new _) else st.channels.find? c := by
  cases hid : st.channels.find? id with
  | some a =>
    rw [if_neg (fun h => nomatch h.2)]
    show (st.channels.emplace id _).find? c = _
    rw [OrdMap.emplace, hid]
  | none =>
    show (st.channels.emplace id _).find? c = _
    rw [OrdMap.emplace_eq_insert hid, OrdMap.find?_insert_eq]
    by_cases hc : c = id
    · rw [hc, update_self, if_pos ⟨rfl, rfl⟩]
    · rw [update_of_ne hc, if_neg (fun h => hc h.1)]

section States

variable {rate : ℕ} {conf : Conference} {st : MixerBufferState}

theorem StateOk.addChannel (h : conf.StateOk rate st) (id : ℕ) :
    conf.StateOk rate (st.addChannel id) := by
  refine ⟨h.sampleRate, fun c a ha => ?_, fun c hc => ?_, h.mixed, h.last⟩
  · rw [find?_addChannel] at ha
    split_ifs at ha with hnew
    · obtain ⟨rfl, hnone⟩ := hnew
      rw [← Option.some.inj ha]
      exact .inl ⟨rfl, h.missing c hnone⟩
    · exact h.channels c a ha
  · rw [find?_addChannel] at hc
    split_ifs at hc
    exact h.missing c hc

theorem Silent.addChannel (h : Silent rate st) (id : ℕ) : Silent rate (st.addChannel id) := by
  refine ⟨h.sampleRate, fun c a ha => ?_, h.mixed⟩
  rw [find?_addChannel] at ha
  split_ifs at ha
  · rw [← Option.some.inj ha]
    rfl
  · exact h.channels c a ha

theorem StateOk.fixChannels : ∀ (ids : List ℕ) {st : MixerBufferState}, conf.StateOk rate st →
    conf.StateOk rate (st.fixChannels ids)
  | [], _, h => h
  | id :: ids, _, h => StateOk.fixChannels ids (h.addChannel id)

theorem Silent.fixChannels : ∀ (ids : List ℕ) {st : MixerBufferState}, Silent rate st →
    Silent rate (st.fixChannels ids)
  | [], _, h => h
  | id :: ids, _, h => Silent.fixChannels ids (h.addChannel id)

theorem find?_addChannel_ne_none {id c : ℕ} (h : c = id ∨ st.channels.find? c ≠ none) :
    (st.addChannel id).channels.find? c ≠ none := by
  rw [find?_addChannel]
  split_ifs with hnew
  · exact Option.some_ne_none _
  · rcases h with rfl | h
    · exact fun hnone => hnew ⟨rfl, hnone⟩
    · exact h

/-- All channels are there. -/
theorem find?_fixChannels {c : ℕ} : ∀ (ids : List ℕ) {st : MixerBufferState},
    c ∈ ids ∨ st.channels.find? c ≠ none → (st.fixChannels ids).channels.find? c ≠ none
  | [], _, h => h.resolve_left not_mem_nil
  | id :: ids, st, h => by
    refine find?_fixChannels ids ?_
    rcases h with h | h
    · exact (mem_cons.1 h).symm.imp_right fun hc => find?_addChannel_ne_none (.inl hc)
    · exact .inr (find?_addChannel_ne_none (.inr h))

theorem silent_new {ids : List ℕ} : Silent rate (.new rate ids) :=
  Silent.fixChannels ids ⟨rfl, nofun, rfl⟩

/-- Before the first frame, a buffer state holds nothing. -/
theorem stateOk_iff_silent (hlog : conf.log = []) : conf.StateOk rate st ↔ Silent rate st := by
  constructor
  · intro h
    refine ⟨h.sampleRate, fun c a ha => ?_, ?_⟩
    · rcases h.channels c a ha with ⟨hinit, -⟩ | ⟨⟨e, he, -⟩, -⟩
      · exact hinit
      · rw [hlog] at he
        exact absurd he not_mem_nil
    · rcases h.mixed with ⟨hinit, -⟩ | ⟨hne, -⟩
      · exact hinit
      · exact absurd hlog hne
  · intro h
    have hnone (c : ℕ) : ∀ e ∈ conf.log, e.channel ≠ c := by
      rw [hlog]
      exact forall_mem_nil _
    exact ⟨h.sampleRate, fun c a ha => .inl ⟨h.channels c a ha, hnone c⟩, fun c _ => hnone c,
      .inl ⟨h.mixed, hlog⟩, fun hne => absurd hlog hne⟩

end States

/-! ## What was put -/

section Log

variable {rate : ℕ} {log : List PutEntry} {c u : ℕ}

theorem putFor_eq_zero (h : ∀ e ∈ log, e.channel ≠ c) (u : ℕ) : putFor rate log c u = 0 := by
  induction log with
  | nil => rfl
  | cons e log ih =>
    obtain ⟨he, hlog⟩ := forall_mem_cons.1 h
    rw [putFor, if_neg fun hcov => he hcov.1]
    exact ih hlog

theorem putFor_cons_of_ne {e : PutEntry} (h : e.channel ≠ c) (u : ℕ) :
    putFor rate (e :: log) c u = putFor rate log c u :=
  if_neg fun hcov => h hcov.1

/-- A frame that continues what the channel has put. -/
theorem putFor_cons {e : PutEntry} (h : ∀ u, e.start rate ≤ u → putFor rate log e.channel u = 0) :
    putFor rate (e :: log) e.channel =
      splice (putFor rate log e.channel) (e.start rate) e.buffer := by
  funext u
  rw [putFor, splice]
  by_cases hbefore : u < e.start rate
  · rw [if_pos hbefore, if_neg (by omega)]
  · have hle := Nat.not_lt.1 hbefore
    split_ifs with hcov
    · rfl
    · rw [h u hle, getElem?_eq_none (by omega)]
      rfl

end Log

theorem mix_eq_zero {conf : Conference} (hlog : conf.log = []) {u : ℕ} : conf.mix rate u = 0 := by
  rw [mix, hlog]
  exact Finset.sum_eq_zero fun c _ => rfl

/-! ## Signals -/

section Signals

variable {rate : ℕ} {conf : Conference} {c : ℕ}

theorem frameEnd_bounds (conf : Conference) (rate : ℕ) (put : Prop) [Decidable put] :
    conf.frameStart rate ≤ conf.frameEnd rate put ∧
      conf.frameEnd rate put ≤ conf.frameStart rate + conf.dur * (rate / 100) := by
  rw [frameEnd]
  split_ifs
  · exact ⟨Nat.le_add_right _ _, le_rfl⟩
  · exact ⟨le_rfl, Nat.le_add_right _ _⟩

theorem ChannelOk.carries {a : SampleArray (BitVec 16)} (h : conf.ChannelOk rate c a) :
    a.Carries (putFor rate conf.log c) (conf.frameEnd rate (c ∈ conf.done)) := by
  rcases h with ⟨hinit, hnone⟩ | ⟨-, hholds⟩
  · exact .inl ⟨hinit, putFor_eq_zero hnone⟩
  · exact .inr hholds

theorem MixOk.carries {a : SampleArray (BitVec 32)} (h : conf.MixOk rate a) :
    a.Carries (fun u => ofInt 32 (conf.mix rate u))
      (conf.frameEnd rate (conf.done ≠ [])) := by
  rcases h with ⟨hinit, hlog⟩ | ⟨-, hholds⟩
  · exact .inl ⟨hinit, fun u => congrArg (ofInt 32) (mix_eq_zero hlog)⟩
  · exact .inr hholds

end Signals

/-! ## Frames that are put -/

section Put

variable {rate : ℕ} {conf : Conference} {st : MixerBufferState} {c : ℕ}
  {buffer : List (BitVec 16)}

/-- The conference with a frame in its log. -/
def logPut (conf : Conference) (c : ℕ) (buffer : List (BitVec 16)) : Conference :=
  { conf with log := ⟨c, conf.ts, buffer⟩ :: conf.log, done := c :: conf.done }

/-- The channel can put this frame in this tick. -/
structure CanPut (rate : ℕ) (conf : Conference) (c : ℕ) (buffer : List (BitVec 16)) : Prop where
  frame : FrameOk rate conf.dur
  member : c ∈ conf.mixer.channelids
  notDone : c ∉ conf.done
  length : buffer.length = conf.dur * (rate / 100)

theorem CanPut.size (h : conf.CanPut rate c buffer) : buffer.length ≤ SIZE_MIX_BUFFER := by
  have hbuf := h.frame.2
  rw [show AUDIO_BUFFER_SIZE = 8192 from rfl] at hbuf
  rw [h.length, show SIZE_MIX_BUFFER = 16384 from rfl]
  omega

theorem CanPut.length_pos (h : conf.CanPut rate c buffer) (hrate : 100 ∣ rate) (hpos : 0 < rate) :
    0 < buffer.length := by
  obtain ⟨s, rfl, hs⟩ := rate_cases hrate hpos
  rw [h.length, Nat.mul_div_cancel_left s (by decide)]
  exact Nat.mul_pos h.frame.1 hs

theorem frameEnd_logPut (h : conf.CanPut rate c buffer) {put : Prop} [Decidable put] (hput : put) :
    (conf.logPut c buffer).frameEnd rate put = conf.frameStart rate + buffer.length := by
  rw [frameEnd, if_pos hput, h.length]
  rfl

variable {a : SampleArray (BitVec 16)}

/-- Nothing was put yet for the time of the frame. -/
theorem ChannelOk.zero (h : conf.ChannelOk rate c a) (hdone : c ∉ conf.done) {u : ℕ}
    (hu : conf.frameStart rate ≤ u) :
    putFor rate conf.log c u = 0 := by
  refine h.carries.zero ?_
  rwa [frameEnd, if_neg hdone]

theorem putFor_logPut (h : conf.ChannelOk rate c a) (hdone : c ∉ conf.done) :
    putFor rate (conf.logPut c buffer).log c =
      splice (putFor rate conf.log c) (conf.frameStart rate) buffer :=
  putFor_cons fun _ hu => h.zero hdone hu

/-- The samples of the channel that puts the frame. -/
theorem ChannelOk.put (h : conf.ChannelOk rate c a) (hput : conf.CanPut rate c buffer) :
    (conf.logPut c buffer).ChannelOk rate c
      (a.put (ofNat 32 (conf.frameStart rate)) buffer) := by
  refine .inr ⟨⟨_, mem_cons_self, rfl⟩, ?_⟩
  have hcarries := h.carries
  rw [frameEnd, if_neg hput.notDone] at hcarries
  have hdone : c ∈ (conf.logPut c buffer).done := mem_cons_self
  rw [frameEnd_logPut hput hdone, putFor_logPut h hput.notDone]
  exact hcarries.put le_rfl (Nat.le_add_right _ _) hput.size

/-- The samples of another channel. -/
theorem ChannelOk.put_of_ne {c' : ℕ} (h : conf.ChannelOk rate c' a) (hne : c' ≠ c) :
    (conf.logPut c buffer).ChannelOk rate c' a := by
  rcases h with ⟨hinit, hnone⟩ | ⟨⟨e, he, hec⟩, hholds⟩
  · exact .inl ⟨hinit, forall_mem_cons.2 ⟨hne.symm, hnone⟩⟩
  · refine .inr ⟨⟨e, mem_cons_of_mem _ he, hec⟩, ?_⟩
    have hlog : putFor rate (conf.logPut c buffer).log c' = putFor rate conf.log c' :=
      funext fun u => putFor_cons_of_ne hne.symm u
    have hmem : (c' ∈ (conf.logPut c buffer).done) ↔ c' ∈ conf.done :=
      mem_cons.trans (or_iff_right hne)
    have hend : (conf.logPut c buffer).frameEnd rate (c' ∈ (conf.logPut c buffer).done) =
        conf.frameEnd rate (c' ∈ conf.done) :=
      if_congr hmem rfl rfl
    rwa [hend, hlog]

/-- The sum changes by what changes for the channel. -/
theorem mix_logPut (hc : c ∈ conf.mixer.channelids) (u : ℕ) :
    (conf.logPut c buffer).mix rate u = conf.mix rate u +
      (putFor rate (conf.logPut c buffer).log c u).toInt - (putFor rate conf.log c u).toInt := by
  have hmem := mem_toFinset.2 hc
  have hothers : ∀ c' ∈ conf.mixer.channelids.toFinset.erase c,
      (putFor rate (conf.logPut c buffer).log c' u).toInt = (putFor rate conf.log c' u).toInt := by
    intro c' hc'
    rw [show (conf.logPut c buffer).log = ⟨c, conf.ts, buffer⟩ :: conf.log from rfl,
      putFor_cons_of_ne (Finset.ne_of_mem_erase hc').symm]
  rw [mix, mix, show (conf.logPut c buffer).mixer = conf.mixer from rfl,
    ← Finset.add_sum_erase _ _ hmem, ← Finset.add_sum_erase _ _ hmem, Finset.sum_congr rfl hothers]
  ring

theorem length_mixAdd (src : ℕ → BitVec 32) :
    (mixAdd ((List.range buffer.length).map src) buffer).length = buffer.length := by
  rw [mixAdd, length_zipWith, length_map, length_range, Nat.min_self]

/-- The sum with the frame added to it. -/
theorem splice_mixAdd (h : conf.ChannelOk rate c a) (hput : conf.CanPut rate c buffer)
    (hzero : ∀ u, conf.frameStart rate + buffer.length ≤ u → ofInt 32 (conf.mix rate u) = 0) :
    splice (fun u => ofInt 32 (conf.mix rate u)) (conf.frameStart rate)
        (mixAdd ((List.range buffer.length).map fun j =>
          ofInt 32 (conf.mix rate (conf.frameStart rate + j))) buffer) =
      fun u => ofInt 32 ((conf.logPut c buffer).mix rate u) := by
  funext u
  rw [mix_logPut hput.member, putFor_logPut h hput.notDone, splice, splice]
  by_cases hbefore : u < conf.frameStart rate
  · rw [if_pos hbefore, if_pos hbefore, add_sub_cancel_right]
  · have hle := Nat.not_lt.1 hbefore
    rw [if_neg hbefore, if_neg hbefore, h.zero hput.notDone hle]
    obtain ⟨j, rfl⟩ := Nat.exists_eq_add_of_le hle
    rw [Nat.add_sub_cancel_left]
    by_cases hj : j < buffer.length
    · rw [mixAdd, getElem?_zipWith, getElem?_map, getElem?_range hj, getElem?_eq_getElem hj]
      show _ + ofInt 32 buffer[j].toInt = ofInt 32 (_ + buffer[j].toInt - 0)
      rw [sub_zero, BitVec.ofInt_add]
    · have hlen := Nat.not_lt.1 hj
      rw [getElem?_eq_none (by rwa [length_mixAdd]), getElem?_eq_none hlen]
      show 0 = ofInt 32 (_ + 0 - 0)
      rw [sub_zero, add_zero, hzero _ (Nat.add_le_add_left hlen _)]

/-- The sum of all channels. -/
theorem MixOk.put {a : SampleArray (BitVec 32)} {b : SampleArray (BitVec 16)}
    (h : conf.MixOk rate a) (hb : conf.ChannelOk rate c b) (hput : conf.CanPut rate c buffer)
    (hpos : 0 < buffer.length) :
    (conf.logPut c buffer).MixOk rate (a.put (ofNat 32 (conf.frameStart rate))
      (mixAdd (a.get (ofNat 32 (conf.frameStart rate)) buffer.length) buffer)) := by
  obtain ⟨hlow, hhigh⟩ := conf.frameEnd_bounds rate (conf.done ≠ [])
  rw [← hput.length] at hhigh
  have hsize := hput.size
  have hzero u (hu : conf.frameStart rate + buffer.length ≤ u) :
      ofInt 32 (conf.mix rate u) = 0 := h.carries.zero (hhigh.trans hu)
  have hget := h.carries.get hpos hsize (hhigh.trans (Nat.add_le_add_left hsize _))
    (hlow.trans (Nat.le_add_right _ _))
  have hlen : (mixAdd (a.get (ofNat 32 (conf.frameStart rate)) buffer.length) buffer).length
      = buffer.length := by
    rw [hget, length_mixAdd]
  have hholds := h.carries.put hlow (hhigh.trans (Nat.add_le_add_left hlen.ge _))
    (hlen.trans_le hsize)
  rw [hget, length_mixAdd, splice_mixAdd hb hput hzero] at hholds
  refine .inr ⟨cons_ne_nil _ _, ?_⟩
  have hdone : (conf.logPut c buffer).done ≠ [] := cons_ne_nil _ _
  rwa [frameEnd_logPut hput hdone, hget]

/-- The buffer state of the conference, with the frame. -/
theorem StateOk.putFrame (h : conf.StateOk rate st) (hput : conf.CanPut rate c buffer)
    (hrate : 100 ∣ rate) (hpos : 0 < rate) (hts : conf.ts < 2 ^ 48)
    (hc : st.channels.find? c ≠ none) :
    (conf.logPut c buffer).StateOk rate (st.putFrame rate c conf.ts buffer) := by
  obtain ⟨a, ha⟩ := Option.ne_none_iff_exists'.1 hc
  have hdelay : (conf.ts + MIXER_DELAY) % 2 ^ 64 = conf.ts + MIXER_DELAY := by
    rw [show MIXER_DELAY = 2048 from rfl]
    omega
  have huser : userTs rate (conf.ts + MIXER_DELAY) = conf.frameStart rate :=
    userTs_eq hput.frame (by omega)
  have hok := h.channels c a ha
  have hframe : st.putFrame rate c conf.ts buffer =
      { st with
        channels := st.channels.insert c (a.put (ofNat 32 (conf.frameStart rate)) buffer)
        mixedChannel := st.mixedChannel.put (ofNat 32 (conf.frameStart rate))
          (mixAdd (st.mixedChannel.get (ofNat 32 (conf.frameStart rate)) buffer.length)
            buffer)
        lastTs := ofNat 32 (conf.logPut c buffer).putEnd } := by
    rw [MixerBufferState.putFrame, ha]
    dsimp only
    rw [hdelay, huser, hput.length, sysDuration_frame hrate hpos]
    rfl
  rw [hframe]
  refine ⟨h.sampleRate, fun c' b hb => ?_, fun c' hnone => ?_,
    h.mixed.put hok hput (hput.length_pos hrate hpos), fun _ => rfl⟩
  · rw [OrdMap.find?_insert_eq] at hb
    by_cases hne : c' = c
    · subst hne
      rw [update_self] at hb
      rw [← Option.some.inj hb]
      exact hok.put hput
    · rw [update_of_ne hne] at hb
      exact (h.channels c' b hb).put_of_ne hne
  · rw [OrdMap.find?_insert_eq] at hnone
    have hne : c' ≠ c := by
      rintro rfl
      rw [update_self] at hnone
      exact Option.some_ne_none _ hnone
    rw [update_of_ne hne] at hnone
    exact forall_mem_cons.2 ⟨hne.symm, h.missing c' hnone⟩

end Put

end Conference

end Sems
