import Sems.RegisterIndexes
import Sems.RegisterRequest

/-!
# Expiry in the register cache

`Lasting` says of a cache with at most one binding for each address of record that no alias lasts
longer than its binding. It is kept by a new expiry of an alias that is not later than the end of
its binding (`Lasting.updateAliasExpires`), by an update (`Lasting.update`) and by the end of an
address of record (`Lasting.removeAor`).
-/

namespace Sems

open List Function Option AliasEntry

namespace RegisterCache

variable {hashlittle : Str → BitVec 32 → BitVec 32} {c c' : RegisterCache}

/-- Every alias entry has the only binding of its address of record, which lasts at least as
long. -/
structure Lasting (c : RegisterCache) : Prop where
  bound : Indexes place c.findAliasEntry c.names
  named : ∀ a, ∀ ae ∈ c.findAliasEntry a, ae.aliasName = a
  lasts : ∀ {aor idx b ae}, (c.entry aor).find? idx = some b →
    c.findAliasEntry b.aliasName = some ae → ae.uaExpire ≤ b.regExpire
  single : ∀ aor, (c.entry aor).entries.length ≤ 1

namespace Lasting

theorem empty : RegisterCache.empty.Lasting where
  bound := Indexes.empty
  named := nofun
  lasts := nofun
  single := fun _ => Nat.zero_le _

/-- A binding with the same alias is the same. -/
theorem binding_eq (h : c.Lasting) {aor aor' idx idx' : Str} {b b' : RegBinding}
    (hb : (c.entry aor).find? idx = some b) (hb' : (c.entry aor').find? idx' = some b')
    (hname : b.aliasName = b'.aliasName) : b = b' := by
  obtain ⟨ae, hae, hplace⟩ := exists_entry h.bound hb
  obtain ⟨ae', hae', hplace'⟩ := exists_entry h.bound hb'
  rw [hname, hae'] at hae
  obtain rfl := some_inj.1 hae
  obtain ⟨rfl, rfl⟩ := Prod.mk.inj (hplace'.symm.trans hplace)
  rw [hb] at hb'
  exact some_inj.1 hb'

/-! ## New expiries of aliases -/

theorem updateAliasExpires (h : c.Lasting) {aor idx : Str} {b : RegBinding} {t : ℤ}
    (hb : (c.entry aor).find? idx = some b) (ht : t ≤ b.regExpire) :
    (c.updateAliasExpires b.aliasName t).1.Lasting := by
  obtain ⟨ae, hae, -⟩ := exists_entry h.bound hb
  have hfind : (c.updateAliasExpires b.aliasName t).1.findAliasEntry =
      Function.update c.findAliasEntry b.aliasName (some { ae with uaExpire := t }) := by
    unfold RegisterCache.updateAliasExpires
    rw [hae]
    exact findAliasEntry_storeAlias
  have hentry : (c.updateAliasExpires b.aliasName t).1.entry = c.entry := by
    unfold RegisterCache.updateAliasExpires
    rw [hae]
    rfl
  refine ⟨?_, ?_, ?_, ?_⟩
  · have hnames : (c.updateAliasExpires b.aliasName t).1.names = c.names := by
      unfold names
      rw [hentry]
    rw [hfind, hnames]
    exact h.bound.replace hae rfl
  · intro a ae' hae'
    rw [hfind] at hae'
    by_cases ha : a = b.aliasName
    · rw [ha, update_self] at hae'
      rw [← mem_some_iff.1 hae', ha]
      exact h.named _ ae hae
    · rw [update_of_ne ha] at hae'
      exact h.named a ae' hae'
  · intro aor' idx' b' ae' hb' hae'
    rw [hentry] at hb'
    rw [hfind] at hae'
    by_cases ha : b'.aliasName = b.aliasName
    · rw [ha, update_self, some_inj] at hae'
      rw [← hae', h.binding_eq hb' hb ha]
      exact ht
    · rw [update_of_ne ha] at hae'
      exact h.lasts hb' hae'
  · rw [hentry]
    exact h.single

end Lasting

theorem entry_updateAliasExpires (a : Str) (t : ℤ) :
    (c.updateAliasExpires a t).1.entry = c.entry := by
  unfold updateAliasExpires
  split
  · rfl
  · rfl

theorem contactUri_updateAliasExpires (a : Str) (t : ℤ) (a' : Str) :
    ((c.updateAliasExpires a t).1.findAliasEntry a').map contactUri =
      (c.findAliasEntry a').map contactUri := by
  unfold updateAliasExpires
  cases hae : c.findAliasEntry a with
  | none => rfl
  | some ae =>
    rw [findAliasEntry_storeAlias]
    by_cases ha : a' = a
    · rw [ha, update_self, hae]
      rfl
    · rw [update_of_ne ha]

theorem applyUpdates_cons (u : Str × ℤ) (us : List (Str × ℤ)) :
    (applyUpdates c (u :: us)).1 = (c.updateAliasExpires u.1 u.2).1 ∨
      applyUpdates c (u :: us) = applyUpdates (c.updateAliasExpires u.1 u.2).1 us := by
  rw [applyUpdates]
  cases hres : c.updateAliasExpires u.1 u.2 with
  | mk c' ok =>
    cases ok with
    | false => exact .inl rfl
    | true => exact .inr rfl

theorem entry_applyUpdates :
    ∀ (us : List (Str × ℤ)) (c : RegisterCache), (applyUpdates c us).1.entry = c.entry
  | [], _ => rfl
  | u :: us, c => by
    rcases applyUpdates_cons u us with h | h
    · rw [h, entry_updateAliasExpires]
    · rw [h, entry_applyUpdates us, entry_updateAliasExpires]

theorem contactUri_applyUpdates (a : Str) :
    ∀ (us : List (Str × ℤ)) (c : RegisterCache),
      ((applyUpdates c us).1.findAliasEntry a).map contactUri = (c.findAliasEntry a).map contactUri
  | [], _ => rfl
  | u :: us, c => by
    rcases applyUpdates_cons u us with h | h
    · rw [h, contactUri_updateAliasExpires]
    · rw [h, contactUri_applyUpdates a us, contactUri_updateAliasExpires]

/-- No update lasts longer than the binding of its alias. -/
theorem Lasting.applyUpdates :
    ∀ {us : List (Str × ℤ)} {c : RegisterCache}, c.Lasting →
      (∀ u ∈ us, ∃ aor idx b, (c.entry aor).find? idx = some b ∧ b.aliasName = u.1 ∧
        u.2 ≤ b.regExpire) → (applyUpdates c us).1.Lasting
  | [], _, h, _ => h
  | u :: us, c, h, hus => by
    obtain ⟨⟨aor, idx, b, hb, hname, ht⟩, hus⟩ := forall_mem_cons.1 hus
    have hu := hname ▸ h.updateAliasExpires hb ht
    rcases applyUpdates_cons u us with heq | heq
    · rwa [heq]
    · rw [heq]
      refine Lasting.applyUpdates hu ?_
      rw [entry_updateAliasExpires]
      exact hus

/-! ## A binding for an address of record -/

/-- The alias of the only binding, or the alias of a new one. -/
def nextAlias (hashlittle : Str → BitVec 32 → BitVec 32) (c : RegisterCache) (au : AliasEntry) :
    Str :=
  match (c.entry au.aor).entries.head? with
  | some (_, b) => b.aliasName
  | none => computeAliasHash hashlittle au.aor au.contactUri au.sourceIp

variable {e : AorEntry} {idx : Str} {b : RegBinding}

theorem entries_eq_of_head? (hlen : e.entries.length ≤ 1) (hhead : e.entries.head? = some (idx, b))
    : e.entries = [(idx, b)] := by
  cases he : e.entries with
  | nil =>
    rw [he] at hhead
    exact absurd hhead nofun
  | cons x l =>
    rw [he, length_cons] at hlen
    rw [he, head?_cons, some_inj] at hhead
    have hl : l = [] := length_eq_zero_iff.1 (by omega)
    rw [hhead, hl]

theorem ordMap_ext {e' : AorEntry} (h : e.entries = e'.entries) : e = e' := by
  cases e
  cases e'
  simpa using h

variable {au : AliasEntry}

/-- `update` of an address of record with at most one binding. -/
theorem update_eq (hashlittle : Str → BitVec 32 → BitVec 32) (h : c.Lasting) (t : ℤ)
    (hau : ¬ Refused au) :
    (c.update hashlittle t au).entry = Function.update c.entry au.aor
        (OrdMap.empty.insert (bindingIdx au.contactUri au.sourceIp)
          ⟨t, nextAlias hashlittle c au⟩) ∧
      (c.update hashlittle t au).findAliasEntry =
        Function.update c.findAliasEntry (nextAlias hashlittle c au)
          (some { au with aliasName := nextAlias hashlittle c au }) := by
  simp only [Refused, not_or] at hau
  unfold RegisterCache.update
  simp only [if_neg hau.1, if_neg hau.2.1, if_neg hau.2.2]
  cases hhead : (c.entry au.aor).entries.head? with
  | none =>
    have hname : nextAlias hashlittle c au =
        computeAliasHash hashlittle au.aor au.contactUri au.sourceIp := by
      unfold nextAlias
      rw [hhead]
    have hempty : c.entry au.aor = OrdMap.empty := ordMap_ext (head?_eq_none_iff.1 hhead)
    rw [hname, hempty]
    exact ⟨entry_setEntry _ _, findAliasEntry_storeAlias⟩
  | some e =>
    obtain ⟨idx, b⟩ := e
    have hname : nextAlias hashlittle c au = b.aliasName := by
      unfold nextAlias
      rw [hhead]
    have hentries := entries_eq_of_head? (h.single au.aor) hhead
    rw [hname]
    by_cases hidx : idx = bindingIdx au.contactUri au.sourceIp
    · simp only [hidx, ne_eq, not_true_eq_false, if_false]
      refine ⟨(entry_setEntry _ _).trans ?_, findAliasEntry_storeAlias⟩
      congr 1
      refine ordMap_ext ?_
      show OrdMap.insertEntry _ _ (c.entry au.aor).entries = _
      rw [hentries, hidx]
      simp [OrdMap.insertEntry, OrdMap.insert, OrdMap.empty]
    · simp only [hidx, ne_eq, not_false_eq_true, if_true]
      have herase : (c.entry au.aor).erase idx = OrdMap.empty := by
        refine ordMap_ext ?_
        show (c.entry au.aor).entries.filter _ = []
        rw [hentries]
        simp
      rw [herase]
      refine ⟨(entry_setEntry _ _).trans ?_, findAliasEntry_storeAlias.trans ?_⟩
      · unfold changeContact
        split
        · rfl
        · rfl
      · unfold changeContact
        split
        · rfl
        · rfl

theorem find?_single (idx : Str) (b : RegBinding) (i : Str) :
    ((OrdMap.empty : AorEntry).insert idx b).find? i = if i = idx then some b else none := by
  rw [OrdMap.find?_insert_update, update_apply]
  rfl

theorem find?_of_entries (h : e.entries = [(idx, b)]) (i : Str) :
    e.find? i = if i = idx then some b else none := by
  rw [← find?_single]
  exact congrFun (congrArg OrdMap.find? (ordMap_ext h)) i

/-- A binding for an address of record without one, with an alias of its own. -/
theorem Lasting.enter (h : c.Lasting) (ae : AliasEntry) {t : ℤ}
    (hempty : c.entry ae.aor = OrdMap.empty) (hnone : c.findAliasEntry ae.aliasName = none)
    (hua : ae.uaExpire ≤ t)
    (hentry : c'.entry = Function.update c.entry ae.aor
      (OrdMap.empty.insert (bindingIdx ae.contactUri ae.sourceIp) ⟨t, ae.aliasName⟩))
    (hfind : c'.findAliasEntry = Function.update c.findAliasEntry ae.aliasName (some ae)) :
    c'.Lasting := by
  refine ⟨?_, ?_, ?_, fun aor => ?_⟩
  · have hnames : c'.names = Function.update c.names ae.place (some ae.aliasName) := by
      refine names_update (b := some ⟨t, ae.aliasName⟩) hentry ?_
      rw [hempty]
      exact OrdMap.find?_insert_update
    rw [hfind, hnames]
    refine h.bound.insert hnone ?_
    simp only [names, place, hempty]
    rfl
  · intro a ae' hae
    rw [hfind] at hae
    by_cases ha : a = ae.aliasName
    · rw [ha, update_self] at hae
      rw [← mem_some_iff.1 hae, ha]
    · rw [update_of_ne ha] at hae
      exact h.named a ae' hae
  · intro aor idx b ae' hb hae
    rw [hentry] at hb
    rw [hfind] at hae
    by_cases haor : aor = ae.aor
    · rw [haor, update_self, find?_single] at hb
      split_ifs at hb
      rw [← some_inj.1 hb, update_self, some_inj] at hae
      rw [← some_inj.1 hb, ← hae]
      exact hua
    · rw [update_of_ne haor] at hb
      obtain ⟨old, hold, -⟩ := exists_entry h.bound hb
      have ha : b.aliasName ≠ ae.aliasName := fun ha => by
        rw [ha, hnone] at hold
        cases hold
      rw [update_of_ne ha] at hae
      exact h.lasts hb hae
  · rw [hentry, update_apply]
    split_ifs
    · exact le_rfl
    · exact h.single aor

theorem findAliasEntry_removeAlias {a : Str} :
    (c.removeAlias hashlittle a).findAliasEntry = Function.update c.findAliasEntry a none := by
  have hidIdx : (c.removeAlias hashlittle a).idIdx = c.idIdx.erase a := by
    unfold removeAlias
    cases c.findAliasEntry a with
    | none | some ae => rfl
  unfold findAliasEntry
  rw [hidIdx]
  exact OrdMap.find?_erase_update

/-- The only binding ends with its alias. -/
theorem Lasting.drop (h : c.Lasting) {aor : Str} (hentries : (c.entry aor).entries = [(idx, b)])
    (hentry : c'.entry = Function.update c.entry aor OrdMap.empty)
    (hfind : c'.findAliasEntry = Function.update c.findAliasEntry b.aliasName none) :
    c'.Lasting := by
  have hb : (c.entry aor).find? idx = some b := by
    rw [find?_of_entries hentries, if_pos rfl]
  obtain ⟨ae, hae, hplace⟩ := exists_entry h.bound hb
  have hold : ∀ {a ae'}, c'.findAliasEntry a = some ae' → c.findAliasEntry a = some ae' := by
    intro a ae' hae'
    rw [hfind, update_apply] at hae'
    split_ifs at hae'
    exact hae'
  have hold' : ∀ {aor' idx' b'}, (c'.entry aor').find? idx' = some b' →
      (c.entry aor').find? idx' = some b' := by
    intro aor' idx' b' hb'
    rw [hentry, update_apply] at hb'
    split_ifs at hb'
    · exact absurd hb' nofun
    · exact hb'
  refine ⟨?_, fun a ae' hae' => h.named a ae' (hold hae'),
    fun hb' hae' => h.lasts (hold' hb') (hold hae'), fun aor' => ?_⟩
  · have hnames : c'.names = Function.update c.names ae.place none := by
      rw [hplace]
      refine names_update (b := none) hentry ?_
      funext i
      rw [update_apply, find?_of_entries hentries]
      split_ifs
      · rfl
      · rfl
    rw [hfind, hnames]
    exact h.bound.erase hae
  · rw [hentry, update_apply]
    split_ifs
    · exact Nat.zero_le _
    · exact h.single aor'

/-- A binding is new, or the only one of its address of record. -/
theorem Lasting.update (h : c.Lasting) {t : ℤ} (hau : ¬ Refused au) (hua : au.uaExpire ≤ t)
    (hfresh : (c.entry au.aor).entries = [] → c.findAliasEntry
      (computeAliasHash hashlittle au.aor au.contactUri au.sourceIp) = none) :
    (c.update hashlittle t au).Lasting := by
  obtain ⟨hentry, hfind⟩ := update_eq hashlittle h t hau
  unfold nextAlias at hentry hfind
  cases hhead : (c.entry au.aor).entries.head? with
  | none =>
    rw [hhead] at hentry hfind
    have hnil := head?_eq_none_iff.1 hhead
    exact h.enter
      { au with aliasName := computeAliasHash hashlittle au.aor au.contactUri au.sourceIp }
      (ordMap_ext hnil) (hfresh hnil) hua hentry hfind
  | some e =>
    -- the old binding ends with its alias before the new one begins
    obtain ⟨idx, b⟩ := e
    rw [hhead] at hentry hfind
    have hentries := entries_eq_of_head? (h.single au.aor) hhead
    have hold : ((c.removeAlias hashlittle b.aliasName).setEntry au.aor OrdMap.empty).entry =
        Function.update c.entry au.aor OrdMap.empty := by
      rw [entry_setEntry]
      unfold entry
      rw [removeAlias_regCacheHt]
    have hgone : ((c.removeAlias hashlittle b.aliasName).setEntry au.aor
        OrdMap.empty).findAliasEntry = Function.update c.findAliasEntry b.aliasName none :=
      findAliasEntry_removeAlias
    refine (h.drop hentries hold hgone).enter { au with aliasName := b.aliasName } ?_ ?_ hua ?_ ?_
    · rw [hold, update_self]
    · rw [hgone, update_self]
    · rw [hold, update_idem]
      exact hentry
    · rw [hgone, update_idem]
      exact hfind

theorem Lasting.removeAor (h : c.Lasting) (aor : Str) : (c.removeAor hashlittle aor).Lasting := by
  unfold RegisterCache.removeAor
  split_ifs with haor
  · exact h
  cases hht : c.regCacheHt.find? aor with
  | none => exact h
  | some e =>
    have hentry : c.entry aor = e := by
      rw [entry, hht]
      rfl
    simp only [foldl_removeAlias_regCacheHt]
    cases hl : e.entries with
    | nil =>
      have herase : (c.withHt (c.regCacheHt.erase aor)).entry = c.entry := by
        rw [entry_erase]
        refine update_eq_self_iff.2 ?_
        exact ordMap_ext (hentry ▸ hl.symm)
      refine ⟨?_, h.named, ?_, ?_⟩
      · have hnames : (c.withHt (c.regCacheHt.erase aor)).names = c.names := by
          unfold names
          rw [herase]
        exact hnames ▸ h.bound
      · intro aor' idx b ae hb hae
        exact h.lasts (herase ▸ hb) hae
      · exact fun aor' => herase ▸ h.single aor'
    | cons x l =>
      obtain ⟨idx, b⟩ := x
      have hentries := entries_eq_of_head? (h.single aor) (by rw [hentry, hl, head?_cons])
      rw [hentry, hl] at hentries
      rw [hentries]
      refine h.drop (hentry ▸ hl.trans hentries) (entry_erase aor) ?_
      exact findAliasEntry_removeAlias

end RegisterCache

end Sems
