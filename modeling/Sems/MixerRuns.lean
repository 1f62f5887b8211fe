import Sems.Conference
import Sems.Runs

/-!
# The packets of a conference

The buffer states keep the mix right through every run (`ConfOk`). The packet a channel gets is the
sum of what the other channels have put for its time if the first buffer state is read
(`getChannelPacket_runs`). It gets silence in the tick in which only the end of the frames that are
put has passed a multiple of 2 ^ 32 (`getChannelPacket_atWrap`).
-/

namespace Sems

open List BitVec AmMultiPartyMixer
open BitVec (ofInt)

namespace Conference

variable {rate : ℕ} {conf : Conference}

/-! ## Buffer states -/

section States

variable {states : List MixerBufferState}
variable {g : MixerBufferState → MixerBufferState}

theorem forall_silent_modify (hg : ∀ {st}, Silent rate st → Silent rate (g st)) :
    ∀ (states : List MixerBufferState) (i : ℕ), (∀ x ∈ states, Silent rate x)
    → ∀ x ∈ states.modify i g, Silent rate x
  | [], _, _ => by
    rw [modify_nil]
    exact forall_mem_nil _
  | st :: rest, 0, h => by
    exact forall_mem_cons.2 ((forall_mem_cons.1 h).imp_left hg)
  | st :: rest, i + 1, h => by
    exact forall_mem_cons.2 ((forall_mem_cons.1 h).imp_right (forall_silent_modify hg rest i))

variable (h : conf.StatesOk rate states)

include h

theorem StatesOk.modify (hok : ∀ {st}, conf.StateOk rate st → conf.StateOk rate (g st))
    (hsilent : ∀ {st}, Silent rate st → Silent rate (g st)) {i : ℕ} :
    conf.StatesOk rate (states.modify i g) := by
  cases states with
  | nil => rwa [modify_nil]
  | cons st others =>
    cases i with
    | zero => exact ⟨hok h.1, h.2⟩
    | succ i => exact ⟨h.1, forall_silent_modify hsilent others i h.2⟩

theorem StatesOk.append_new {ids : List ℕ} : conf.StatesOk rate (states ++ [.new rate ids]) := by
  cases states with
  | nil => exact ⟨(stateOk_iff_silent h).2 silent_new, forall_mem_nil _⟩
  | cons st others => exact ⟨h.1, forall_mem_append.2 ⟨h.2, forall_mem_singleton.2 silent_new⟩⟩

/-- Before the first frame all of them are empty. -/
theorem StatesOk.silent (hlog : conf.log = []) : ∀ x ∈ states, Silent rate x := by
  cases states with
  | nil => exact forall_mem_nil _
  | cons st others => exact forall_mem_cons.2 ⟨(stateOk_iff_silent hlog).1 h.1, h.2⟩

/-- They depend on the mixer by the sum only. -/
theorem StatesOk.withMixer {m : AmMultiPartyMixer}
    (hmix : ∀ u, ({ conf with mixer := m } : Conference).mix rate u = conf.mix rate u) :
    ({ conf with mixer := m } : Conference).StatesOk rate states := by
  cases states with
  | nil => exact h
  | cons st others =>
    obtain ⟨hst, hothers⟩ := h
    refine ⟨{ hst with mixed := ?_ }, hothers⟩
    rcases hst.mixed with hnew | ⟨hne, hholds⟩
    · exact .inl hnew
    · refine .inr ⟨hne, ?_⟩
      rw [funext fun u => congrArg (ofInt 32) (hmix u)]
      exact hholds

end States

/-! ## Steps -/

section Steps

variable {m : AmMultiPartyMixer}

theorem nextId_range {k : ℕ} (h : m.channelids = List.range k) : m.nextId = k := by
  rw [nextId, h]
  cases k with
  | zero => rfl
  | succ k => rw [range_succ, getLast?_concat]

variable (h : conf.ConfOk rate)

include h

theorem ConfOk.currentRate (hne : conf.mixer.channelids ≠ []) :
    conf.mixer.getCurrentSampleRate = some rate := by
  obtain ⟨k, hids, hrates⟩ := h.ids
  have hk : 0 < k := by
    refine Nat.pos_of_ne_zero fun hzero => hne ?_
    rw [hids, hzero, range_zero]
  rw [getCurrentSampleRate, hrates]
  exact max?_replicate_of_pos hk

omit h in
theorem toFinset_listRange (k : ℕ) : (List.range k).toFinset = Finset.range k := by
  ext c
  rw [mem_toFinset, mem_range, Finset.mem_range]

/-- A channel that joins has put nothing. -/
theorem mix_join (u : ℕ) : (conf.step rate .join).mix rate u = conf.mix rate u := by
  obtain ⟨k, hids, -⟩ := h.ids
  have hnone : ∀ e ∈ conf.log, e.channel ≠ k := by
    intro e he hek
    have hlt := h.members e he
    rw [hids, hek, mem_range] at hlt
    exact absurd hlt (lt_irrefl k)
  have hjoin : (conf.step rate .join).mixer.channelids = List.range (k + 1) := by
    show conf.mixer.channelids ++ [conf.mixer.nextId] = _
    rw [nextId_range hids, hids, range_succ]
  rw [mix, mix, hjoin, hids, toFinset_listRange, toFinset_listRange, Finset.sum_range_succ]
  show _ + (putFor rate conf.log k u).toInt = _
  rw [putFor_eq_zero hnone]
  exact add_zero _

theorem ConfOk.join : (conf.step rate .join).ConfOk rate := by
  obtain ⟨k, hids, hrates⟩ := h.ids
  refine ⟨h.frame, h.ts, ⟨k + 1, ?_, ?_⟩, fun e he => List.mem_append_left _ (h.members e he), ?_⟩
  · show conf.mixer.channelids ++ [conf.mixer.nextId] = _
    rw [nextId_range hids, hids, List.range_succ]
  · show rate :: conf.mixer.samplerates = _
    rw [hrates, List.replicate_succ]
  · refine StatesOk.withMixer ?_ (mix_join h)
    show conf.StatesOk rate (conf.mixer.addChannel rate).bufferState
    rw [addChannel]
    split
    · exact h.states.modify (fun hst => hst.addChannel _) (fun hst => hst.addChannel _)
    · exact h.states

/-- The first buffer state is the one that is written. -/
theorem ConfOk.findOrCreateBufferState : ∃ st others,
    conf.mixer.findOrCreateBufferState rate = (st :: others, 0) ∧
      conf.StatesOk rate (st :: others) ∧
        ∀ c ∈ conf.mixer.channelids, st.channels.find? c ≠ none := by
  have hstates := h.states
  rw [AmMultiPartyMixer.findOrCreateBufferState]
  cases hbs : conf.mixer.bufferState with
  | nil =>
    rw [hbs] at hstates
    exact ⟨_, _, rfl, hstates.append_new, fun c hc => find?_fixChannels _ (.inl hc)⟩
  | cons st others =>
    rw [hbs] at hstates
    rw [findIdx?_cons, if_pos (decide_eq_true hstates.1.sampleRate)]
    exact ⟨_, _, rfl, ⟨hstates.1.fixChannels _, hstates.2⟩,
      fun c hc => find?_fixChannels _ (.inl hc)⟩

theorem ConfOk.put (hrate : 100 ∣ rate) (hpos : 0 < rate) {c : ℕ} {buffer : List (BitVec 16)}
    (hev : conf.EvOk rate (.put c buffer)) :
    (conf.step rate (.put c buffer)).ConfOk rate := by
  obtain ⟨hc, hdone, hlen⟩ := hev
  have hput : conf.CanPut rate c buffer := ⟨h.frame, hc, hdone, hlen⟩
  obtain ⟨st, others, hfind, ⟨hst, hothers⟩, hmem⟩ := h.findOrCreateBufferState
  have hstep : conf.mixer.putChannelPacket c conf.ts buffer =
      { conf.mixer with bufferState := st.putFrame rate c conf.ts buffer :: others } := by
    have hbuf : ¬(buffer = [] ∨ rate < 100) := by
      have := hput.length_pos hrate hpos
      rintro (rfl | hlt)
      · exact absurd this (lt_irrefl 0)
      · exact absurd (Nat.le_of_dvd hpos hrate) (Nat.not_le.2 hlt)
    rw [putChannelPacket, h.currentRate (ne_nil_of_mem hc)]
    dsimp only
    rw [if_neg hbuf, hfind]
    rfl
  have hlog : (conf.logPut c buffer).StatesOk rate (st.putFrame rate c conf.ts buffer :: others) :=
    ⟨hst.putFrame hput hrate hpos h.ts (hmem c hc), hothers⟩
  show ({ conf.logPut c buffer with mixer := conf.mixer.putChannelPacket c conf.ts buffer } :
    Conference).ConfOk rate
  rw [hstep]
  exact ⟨h.frame, h.ts, h.ids, forall_mem_cons.2 ⟨hc, h.members⟩, hlog.withMixer fun _ => rfl⟩

omit h in
/-- No buffer state of the current rate is dropped. -/
theorem StatesOk.cleanup (h : conf.StatesOk rate m.bufferState)
    (hrate : m.getCurrentSampleRate = some rate) (lastTs : ℕ) :
    m.cleanupBufferStates lastTs = m := by
  rw [cleanupBufferStates]
  obtain ⟨ratemap, rates, ids, states⟩ := m
  cases states with
  | nil => rfl
  | cons st others =>
    rw [dropWhile_cons_of_neg]
    rw [hrate, h.1.sampleRate]
    simp

omit h in
theorem StatesOk.findBufferStateForReading (h : conf.StatesOk rate m.bufferState) (lastTs : ℕ) :
    conf.StatesOk rate (m.findBufferStateForReading rate lastTs).1 := by
  rw [AmMultiPartyMixer.findBufferStateForReading]
  split
  · exact h.modify (fun hst => hst.fixChannels _) (fun hst => hst.fixChannels _)
  · split_ifs
    · exact h.append_new
    · exact h

theorem ConfOk.get (c samples : ℕ) : (conf.step rate (.get c samples)).ConfOk rate := by
  show ({ conf with mixer := (conf.mixer.getChannelPacket c conf.ts samples).1 } :
    Conference).ConfOk rate
  by_cases hne : conf.mixer.channelids = []
  · obtain ⟨k, hids, hrates⟩ := h.ids
    have hk : k = 0 := range_eq_nil.1 (hids.symm.trans hne)
    have hsame : (conf.mixer.getChannelPacket c conf.ts samples).1 = conf.mixer := by
      rw [getChannelPacket, getCurrentSampleRate, hrates, hk]
      rfl
    rw [hsame]
    exact h
  · rw [getChannelPacket, h.currentRate hne]
    dsimp only
    split_ifs
    · exact h
    · have hstates := h.states.findBufferStateForReading
        ((conf.ts + sysDuration rate samples) % 2 ^ 32)
      generalize conf.mixer.findBufferStateForReading rate _ = res at hstates
      obtain ⟨states, i⟩ := res
      rw [StatesOk.cleanup (m := { conf.mixer with bufferState := states }) hstates
        (h.currentRate hne)]
      exact { h with states := hstates.withMixer fun _ => rfl }

/-- In the next tick, every channel is where the frames of this one end. -/
theorem ConfOk.tick {dur : ℕ} (hev : conf.EvOk rate (.tick dur)) :
    (conf.step rate (.tick dur)).ConfOk rate := by
  obtain ⟨hdone, hframe, hts⟩ := hev
  refine ⟨hframe, hts, h.ids, h.members, ?_⟩
  have hend {put put' : Prop} [Decidable put] [Decidable put'] (hput : put) (hput' : ¬put') :
      (conf.step rate (.tick dur)).frameEnd rate put' = conf.frameEnd rate put := by
    rw [frameEnd, if_neg hput', frameEnd, if_pos hput, frameStart, frameStart, ← sampleTime_add,
      Nat.add_right_comm]
    rfl
  have hchannel {c : ℕ} {a : SampleArray (BitVec 16)} (ha : conf.ChannelOk rate c a) :
      (conf.step rate (.tick dur)).ChannelOk rate c a := by
    rcases ha with hnew | ⟨⟨e, he, rfl⟩, hholds⟩
    · exact .inl hnew
    · refine .inr ⟨⟨e, he, rfl⟩, ?_⟩
      have hnot : e.channel ∉ (conf.step rate (.tick dur)).done := not_mem_nil
      rwa [hend (hdone e he) hnot]
  have hne (hlog : conf.log ≠ []) : conf.done ≠ [] := by
    obtain ⟨e, he⟩ := exists_mem_of_ne_nil _ hlog
    exact ne_nil_of_mem (hdone e he)
  show (conf.step rate (.tick dur)).StatesOk rate conf.mixer.bufferState
  have hstates := h.states
  cases hbs : conf.mixer.bufferState with
  | nil =>
    rw [hbs] at hstates
    exact hstates
  | cons st others =>
    rw [hbs] at hstates
    obtain ⟨hst, hothers⟩ := hstates
    refine ⟨⟨hst.sampleRate, fun c a ha => hchannel (hst.channels c a ha), hst.missing, ?_, ?_⟩,
      hothers⟩
    · rcases hst.mixed with hnew | ⟨hlog, hholds⟩
      · exact .inl hnew
      · refine .inr ⟨hlog, ?_⟩
        rwa [hend (hne hlog) (fun hnil => hnil rfl)]
    · intro hlog
      rw [hst.last hlog, putEnd, if_pos (hne hlog), Nat.add_right_comm]
      rfl

/-- What every step keeps. -/
theorem ConfOk.step (hrate : 100 ∣ rate) (hpos : 0 < rate) {ev : MixerEv}
    (hev : conf.EvOk rate ev) : (conf.step rate ev).ConfOk rate := by
  cases ev with
  | join => exact h.join
  | put c buffer => exact h.put hrate hpos hev
  | get c samples => exact h.get c samples
  | tick dur => exact h.tick hev

omit h

theorem confOk_init {ts dur : ℕ} (hts : ts < 2 ^ 48) (hframe : FrameOk rate dur) :
    (init ts dur).ConfOk rate :=
  ⟨hframe, hts, ⟨0, rfl, rfl⟩, forall_mem_nil _, rfl⟩

end Steps

/-! ## Packets -/

section Packets

variable {st : MixerBufferState} {c n : ℕ}

theorem getFrame_of_silent (h : Silent rate st) {ts : ℕ} (hs : 0 < rate / 100) :
    st.getFrame rate c ts n = List.replicate n 0 := by
  rw [MixerBufferState.getFrame]
  cases ha : st.channels.find? c with
  | none => rfl
  | some a =>
    dsimp only
    rw [SampleArray.get_of_not_init h.mixed, SampleArray.get_of_not_init (h.channels c a ha),
      h.sampleRate, Nat.mul_div_cancel _ hs, mixSub, zipWith_replicate, Nat.min_self]
    rfl

/-- The mix for a channel, from the buffer state that holds the conference. -/
theorem getFrame_of_stateOk (h : conf.ConfOk rate) (hst : conf.StateOk rate st)
    (hc : c ∈ conf.mixer.channelids) (hfind : st.channels.find? c ≠ none) (hs : 0 < rate / 100)
    (hn : 0 < n) (hsize : 2 * n ≤ AUDIO_BUFFER_SIZE) :
    st.getFrame rate c conf.ts n = (List.range n).map fun j =>
      ofInt 32 (conf.mixOthers rate c (sampleTime rate conf.ts + j)) := by
  obtain ⟨a, ha⟩ := Option.ne_none_iff_exists'.1 hfind
  -- what is read begins `MIXER_DELAY` before the frames of this tick
  have huser : userTs rate conf.ts = _ := userTs_eq h.frame (Nat.lt_add_right _ h.ts)
  have hdelay : _ = conf.frameStart rate := sampleTime_add_delay.symm
  have hring : SIZE_MIX_BUFFER = 16384 := rfl
  have hbuf : AUDIO_BUFFER_SIZE = 8192 := rfl
  have hdur := h.frame.2
  have hrate : rate / 100 ≤ conf.dur * (rate / 100) := Nat.le_mul_of_pos_left _ h.frame.1
  have hread {T : Type} [Zero T] {f : ℕ → T} {put : Prop} [Decidable put] {b : SampleArray T}
      (hb : b.Carries f (conf.frameEnd rate put)) :
      b.get (BitVec.ofNat 32 (sampleTime rate conf.ts)) n =
        (List.range n).map fun j => f (sampleTime rate conf.ts + j) := by
    obtain ⟨hlow, hhigh⟩ := conf.frameEnd_bounds rate put
    exact hb.get hn (by omega) (by omega) (by omega)
  rw [MixerBufferState.getFrame, ha]
  dsimp only
  rw [hst.sampleRate, Nat.mul_div_cancel _ hs, huser, hread hst.mixed.carries,
    hread (hst.channels c a ha).carries, mixSub, zipWith_map, zipWith_self]
  refine map_congr_left fun j _ => ?_
  rw [mix, ← Finset.add_sum_erase _ _ (mem_toFinset.2 hc), ofInt_add]
  exact add_sub_cancel_left _ _

theorem findBufferStateForReading_lt {m : AmMultiPartyMixer} {lastTs : ℕ} :
    (m.findBufferStateForReading rate lastTs).2 <
      (m.findBufferStateForReading rate lastTs).1.length := by
  rw [findBufferStateForReading]
  split
  · rename_i hidx
    rw [length_modify]
    exact (findIdx?_eq_some_iff_getElem.1 hidx).1
  · split_ifs with hmax
    · rw [length_append]
      exact Nat.lt_succ_self _
    · have hpos : 0 < m.bufferState.length := lt_of_lt_of_le (by decide) (Nat.not_lt.1 hmax)
      exact Nat.sub_lt hpos Nat.one_pos

/-- Numbers of 32 bits are compared as they are. -/
theorem sysTsLess_or_eq {a b : ℕ} (hle : a ≤ b) (hb : b < 2 ^ 32) :
    (sysTsLess a b || a = b) = true := by
  rw [sysTsLess, Bool.or_eq_true, decide_eq_true_eq, decide_eq_true_eq]
  omega

theorem ConfOk.packet (h : conf.ConfOk rate) (hrate : 100 ∣ rate) (hpos : 0 < rate)
    (hc : c ∈ conf.mixer.channelids) (hn : 0 < n) (hsize : 2 * n ≤ AUDIO_BUFFER_SIZE)
    (hput : conf.ts + sysDuration rate n ≤ conf.putEnd)
    (hblock : (conf.ts + sysDuration rate n) / 2 ^ 32 = conf.putEnd / 2 ^ 32) :
    (conf.mixer.getChannelPacket c conf.ts n).2 = (List.range n).map fun j =>
      ofInt 32 (conf.mixOthers rate c (sampleTime rate conf.ts + j)) := by
  have hle := Nat.le_of_dvd hpos hrate
  have hs : 0 < rate / 100 := Nat.div_pos hle (by decide)
  rw [getChannelPacket, h.currentRate (ne_nil_of_mem hc)]
  dsimp only
  rw [if_neg (by omega)]
  by_cases hlog : conf.log = []
  · -- whichever buffer state is read is empty
    rw [List.getElem?_eq_getElem findBufferStateForReading_lt]
    refine (getFrame_of_silent ((h.states.findBufferStateForReading _).silent hlog _
      (List.getElem_mem findBufferStateForReading_lt)) hs).trans ?_
    have hzero : ∀ j ∈ List.range n,
        ofInt 32 (conf.mixOthers rate c (sampleTime rate conf.ts + j)) = 0 := by
      intro j _
      rw [mixOthers, hlog]
      exact congrArg (ofInt 32) (Finset.sum_eq_zero fun c _ => rfl)
    rw [map_congr_left hzero, map_const', length_range]
  · -- the first buffer state is read
    have hstates := h.states
    rw [findBufferStateForReading]
    cases hbs : conf.mixer.bufferState with
    | nil =>
      rw [hbs] at hstates
      exact absurd hstates hlog
    | cons st others =>
      rw [hbs] at hstates
      have hlast : st.lastTs.toNat = conf.putEnd % 2 ^ 32 := by
        rw [hstates.1.last hlog, toNat_ofNat]
      have hfound : (conf.ts + sysDuration rate n) % 2 ^ 32 ≤ st.lastTs.toNat := by
        omega
      rw [findIdx?_cons, if_pos (sysTsLess_or_eq hfound (BitVec.isLt _))]
      exact getFrame_of_stateOk h (hstates.1.fixChannels _) hc
        (find?_fixChannels _ (.inl hc)) hs hn hsize

/-- The sum of the other channels is an `int`. -/
theorem toInt_mixOthers (hcard : conf.mixer.channelids.length ≤ 2 ^ 16)
    (hc : c ∈ conf.mixer.channelids) {u : ℕ} :
    (ofInt 32 (conf.mixOthers rate c u)).toInt = conf.mixOthers rate c u := by
  have hothers : (conf.mixer.channelids.toFinset.erase c).card ≤ 2 ^ 16 - 1 := by
    rw [Finset.card_erase_of_mem (mem_toFinset.2 hc)]
    exact Nat.sub_le_sub_right ((toFinset_card_le _).trans hcard) 1
  have hbound : |conf.mixOthers rate c u| ≤ (2 ^ 16 - 1) * 2 ^ 15 := by
    calc |conf.mixOthers rate c u|
        ≤ ∑ c' ∈ conf.mixer.channelids.toFinset.erase c, |(putFor rate conf.log c' u).toInt| :=
          Finset.abs_sum_le_sum_abs _ _
      _ ≤ (conf.mixer.channelids.toFinset.erase c).card • (2 ^ 15 : ℤ) := by
          refine Finset.sum_le_card_nsmul _ _ _ fun c' _ => abs_le.2 ⟨?_, ?_⟩
          · exact le_toInt _
          · exact (toInt_lt).le
      _ ≤ (2 ^ 16 - 1) * 2 ^ 15 := by
          exact mul_le_mul_of_nonneg_right (Int.ofNat_le.2 hothers) (by decide)
  obtain ⟨hlow, hhigh⟩ := abs_le.1 hbound
  exact toInt_ofInt_eq_self (by decide) (by omega) (by omega)

/-- In every run at one sample rate, the packet of a channel is the sum of what the others have put
for its time, if what is read has been put, and the ends of what is read and of what was put are not
on two sides of a multiple of 2 ^ 32. -/
theorem getChannelPacket_runs {ts dur : ℕ} {evs : List MixerEv} (hrate : 100 ∣ rate)
    (hpos : 0 < rate) (hts : ts < 2 ^ 48) (hframe : FrameOk rate dur)
    (hrun : RunOk (step rate) (EvOk rate) (init ts dur) evs)
    (hconf : runFrom (step rate) (init ts dur) evs = conf) (hc : c ∈ conf.mixer.channelids)
    (hcard : conf.mixer.channelids.length ≤ 2 ^ 16) (hn : 0 < n)
    (hsize : 2 * n ≤ AUDIO_BUFFER_SIZE) (hput : conf.ts + sysDuration rate n ≤ conf.putEnd)
    (hblock : (conf.ts + sysDuration rate n) / 2 ^ 32 = conf.putEnd / 2 ^ 32) :
    (conf.mixer.getChannelPacket c conf.ts n).2.map BitVec.toInt =
      (List.range n).map fun j => conf.mixOthers rate c (sampleTime rate conf.ts + j) := by
  have hok : conf.ConfOk rate := by
    rw [← hconf]
    exact RunOk.inv (fun h hev => h.step hrate hpos hev) (confOk_init hts hframe) hrun
  rw [hok.packet hrate hpos hc hn hsize hput hblock, map_map]
  exact map_congr_left fun j _ => toInt_mixOthers hcard hc

/-- Two channels at 100 Hz, whose frames have two samples. -/
def twoTicks : List MixerEv :=
  [.join, .join, .put 0 [5, 6], .put 1 [1, 2], .tick 2, .put 0 [7, 8], .put 1 [3, 4]]

theorem getChannelPacket_twoTicks :
    ((runFrom (step 100) (init 0 2) twoTicks).mixer.getChannelPacket 0
        (runFrom (step 100) (init 0 2) twoTicks).ts 2).2.map BitVec.toInt = [1, 2] := by
  have hframe : FrameOk 100 2 := by decide +kernel
  have hrun : RunOk (step 100) (EvOk 100) (init 0 2) twoTicks := by decide +kernel
  refine (getChannelPacket_runs (by decide) (by decide) (by decide) hframe hrun rfl
    (by decide +kernel) (by decide +kernel) (by decide) (by decide) (by decide +kernel)
    (by decide +kernel)).trans ?_
  decide +kernel

/-- The end of the frames of the second tick is behind 2 ^ 32, and the channel gets silence. -/
theorem getChannelPacket_atWrap : ∃ conf : Conference,
    runFrom (step 100) (init (2 ^ 32 - 6144) 2) twoTicks = conf ∧
      RunOk (step 100) (EvOk 100) (init (2 ^ 32 - 6144) 2) twoTicks ∧
      (conf.mixer.getChannelPacket 0 conf.ts 2).2.map BitVec.toInt = [0, 0] ∧
      ((List.range 2).map fun j => conf.mixOthers 100 0 (sampleTime 100 conf.ts + j)) = [1, 2] := by
  refine ⟨_, rfl, ?_, ?_, ?_⟩ <;> decide +kernel

end Packets

end Conference

end Sems
