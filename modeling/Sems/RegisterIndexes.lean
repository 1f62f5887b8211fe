import Sems.JoinedText
import Sems.RegisterCache
import Sems.Runs
import Sems.SecondaryIndex

/-!
# The indexes of the register cache

`Agrees` says of the cache that the bindings and the contact index find exactly the alias entries
(`Indexes`), and that `activeRegs` is the number of bindings. `Regular` is the condition under which
an operation changes the entry of one alias at a time, and both indexes with it
(`Agrees.of_update`), and `registerCache_runs` says that they then agree in every run. The
operations do not check it : a register request from another port leaves the old port in the contact
index (`update_port_stale`).
-/

namespace Sems

open List Function OrdMap Option

namespace AliasEntry

/-- Where the binding of the entry is. -/
def place (ae : AliasEntry) : Str × Str :=
  (ae.aor, bindingIdx ae.contactUri ae.sourceIp)

/-- Where the contact of the entry is. -/
def spot (hashlittle : Str → BitVec 32 → BitVec 32) (ae : AliasEntry) : BitVec 32 × Str :=
  (RegisterCache.getContactBucket hashlittle ae.contactUri ae.sourceIp ae.sourcePort,
    contactKey ae.contactUri ae.sourceIp ae.sourcePort)

end AliasEntry

theorem bindingIdx_inj {uri uri' ip ip' : Str} (hip : '/' ∉ ip) (hip' : '/' ∉ ip')
    (h : bindingIdx uri ip = bindingIdx uri' ip') : uri = uri' ∧ ip = ip' := by
  unfold bindingIdx at h
  rw [append_assoc, append_assoc] at h
  exact append_cons_inj_right hip hip' h

/-- The parts of a contact key. -/
theorem contactKey_inj {uri uri' ip ip' : Str} {port port' : BitVec 16} (hip : '/' ∉ ip)
    (hip' : '/' ∉ ip') (h : contactKey uri ip port = contactKey uri' ip' port') :
    uri = uri' ∧ ip = ip' ∧ port = port' := by
  have hdig : ∀ (c : Char) (p : BitVec 16), c.isDigit = false → c ∉ int2str (p.setWidth 32) :=
    fun c p hc => notMem_toDigits hc _
  unfold contactKey at h
  rw [append_assoc _ ":".toList, append_assoc _ ":".toList] at h
  obtain ⟨hidx, hport⟩ := append_cons_inj_right (hdig ':' port (by decide))
    (hdig ':' port' (by decide)) h
  obtain ⟨huri, hip⟩ := bindingIdx_inj hip hip' hidx
  refine ⟨huri, hip, ?_⟩
  have hnat := toDigits_injective hport
  rw [BitVec.toNat_setWidth, BitVec.toNat_setWidth] at hnat
  have h32 : ∀ p : BitVec 16, p.toNat % 2 ^ 32 = p.toNat := fun p =>
    Nat.mod_eq_of_lt (p.isLt.trans (by decide))
  rw [h32, h32] at hnat
  exact BitVec.eq_of_toNat_eq hnat

open AliasEntry

namespace RegisterCache

/-! ## Lookups after a change -/

section Lookups

variable {hashlittle : Str → BitVec 32 → BitVec 32} {c : RegisterCache}

/-- The cache with another table of bindings. -/
abbrev withHt (c : RegisterCache) (m : OrdMap Str AorEntry) : RegisterCache :=
  { c with regCacheHt := m }

/-- The alias of each binding. -/
def names (c : RegisterCache) (k : Str × Str) : Option Str :=
  ((c.entry k.1).find? k.2).map RegBinding.aliasName

/-- The alias of each contact. -/
def contacts (c : RegisterCache) (k : BitVec 32 × Str) : Option Str :=
  (c.contactIdx k.1).find? k.2

theorem contactAlias_eq (uri ip : Str) (port : BitVec 16) :
    c.contactAlias hashlittle uri ip port =
      (c.contacts (getContactBucket hashlittle uri ip port, contactKey uri ip port)).getD [] :=
  rfl

theorem findAliasEntry_storeAlias {a : Str} {ae : AliasEntry} :
    (c.storeAlias a ae).findAliasEntry = Function.update c.findAliasEntry a (some ae) :=
  find?_insert_update

variable {aor uri idx a : Str}

/-- The entry after a change of the table. -/
theorem entry_update {c' : RegisterCache} {e : Option AorEntry}
    (h : c'.regCacheHt.find? = Function.update c.regCacheHt.find? aor e) :
    c'.entry = Function.update c.entry aor (e.getD OrdMap.empty) := by
  have hcomp := comp_update (fun e : Option AorEntry => e.getD OrdMap.empty)
    c.regCacheHt.find? aor e
  rwa [← h] at hcomp

theorem entry_setEntry (aor : Str) (e : AorEntry) :
    (c.setEntry aor e).entry = Function.update c.entry aor e :=
  entry_update (e := some e) find?_insert_update

theorem entry_erase (aor : Str) :
    (c.withHt (c.regCacheHt.erase aor)).entry = Function.update c.entry aor OrdMap.empty :=
  entry_update (e := none) find?_erase_update

theorem length_entry (aor : Str) : (c.entry aor).entries.length =
    (c.regCacheHt.find? aor).elim 0 fun e => e.entries.length := by
  unfold entry
  cases c.regCacheHt.find? aor with
  | none | some e => rfl

theorem bindings_setEntry (aor : Str) (e : AorEntry) :
    (c.setEntry aor e).bindings + (c.entry aor).entries.length = c.bindings + e.entries.length := by
  rw [length_entry]
  exact sum_insert

theorem bindings_erase (aor : Str) :
    (c.withHt (c.regCacheHt.erase aor)).bindings + (c.entry aor).entries.length = c.bindings := by
  rw [length_entry]
  cases h : c.regCacheHt.find? aor with
  | none =>
    rw [erase_eq_self h]
    rfl
  | some e => exact (sum_erase h).symm

/-- One value of a map of maps changes. -/
theorem uncurry_comp_update {α β γ V : Type} [DecidableEq α] [DecidableEq β] {f : α → V}
    {g : V → β → γ} {a : α} {b : β} {v : V} {x : γ} (hv : g v = Function.update (g (f a)) b x) :
    uncurry (g ∘ Function.update f a v) = Function.update (uncurry (g ∘ f)) (a, b) x := by
  rw [comp_update, hv]
  exact uncurry_update_update _ _ _ _

theorem contacts_contactRemove {ip : Str} {port : BitVec 16} :
    (c.contactRemove hashlittle uri ip port).contacts =
      Function.update c.contacts (getContactBucket hashlittle uri ip port,
        contactKey uri ip port) none :=
  uncurry_comp_update find?_erase_update

/-- A contact that had no alias. -/
theorem contacts_contactInsert {ip : Str} {port : BitVec 16}
    (hfree : c.contacts (getContactBucket hashlittle uri ip port, contactKey uri ip port) = none) :
    (c.contactInsert hashlittle uri ip port a).contacts =
      Function.update c.contacts (getContactBucket hashlittle uri ip port,
        contactKey uri ip port) (some a) :=
  uncurry_comp_update
    ((congrArg OrdMap.find? (emplace_eq_insert hfree)).trans find?_insert_update)

/-- One binding of an address of record changes. -/
theorem names_update {c' : RegisterCache} {e : AorEntry} {b : Option RegBinding}
    (hentry : c'.entry = Function.update c.entry aor e)
    (hfind : e.find? = Function.update (c.entry aor).find? idx b) :
    c'.names = Function.update c.names (aor, idx) (b.map RegBinding.aliasName) := by
  have hnames := comp_update (fun b : Option RegBinding => b.map RegBinding.aliasName)
    (c.entry aor).find? idx b
  rw [← hfind] at hnames
  have h := uncurry_comp_update (g := fun (e : AorEntry) idx =>
    (e.find? idx).map RegBinding.aliasName) hnames
  rwa [← hentry] at h

/-- The entry that a binding names. -/
theorem exists_entry (h : Indexes place c.findAliasEntry c.names) {b : RegBinding}
    (hb : (c.entry aor).find? idx = some b) :
    ∃ ae, c.findAliasEntry b.aliasName = some ae ∧ ae.place = (aor, idx) := by
  refine (h (aor, idx) b.aliasName).1 ?_
  simp only [names, hb, map_some]

theorem computeAliasHash_ne_nil {ip : Str} : computeAliasHash hashlittle aor uri ip ≠ [] :=
  cons_ne_nil _ _

theorem removeAlias_none (ha : c.findAliasEntry a = none) : c.removeAlias hashlittle a = c := by
  unfold removeAlias
  simp only [ha]
  rw [erase_eq_self ha]

theorem entry_shrinkEntry {e : AorEntry} :
    (c.shrinkEntry aor e).entry = Function.update c.entry aor e := by
  unfold shrinkEntry
  split_ifs with he
  · rw [entry_erase]
    obtain ⟨l, hl⟩ := e
    subst he
    rfl
  · exact entry_setEntry aor e

theorem bindings_shrinkEntry (aor : Str) (e : AorEntry) :
    (c.shrinkEntry aor e).bindings + (c.entry aor).entries.length =
      c.bindings + e.entries.length := by
  unfold shrinkEntry
  split_ifs with he
  · rw [bindings_erase, he]
    rfl
  · exact bindings_setEntry aor e

theorem shrinkEntry_eq (aor : Str) (e : AorEntry) :
    c.shrinkEntry aor e = c.withHt (c.shrinkEntry aor e).regCacheHt := by
  unfold shrinkEntry
  split_ifs
  · rfl
  · rfl

theorem removeAlias_ht (m : OrdMap Str AorEntry) (a : Str) :
    (c.withHt m).removeAlias hashlittle a = (c.removeAlias hashlittle a).withHt m := by
  have hfind : (c.withHt m).findAliasEntry a = c.findAliasEntry a := rfl
  unfold removeAlias
  rw [hfind]
  cases c.findAliasEntry a with
  | none | some ae => rfl

/-- `remove` with a table entry that may be missing. -/
theorem remove_eq (haor : aor ≠ []) :
    c.remove hashlittle aor uri a =
      (match c.regCacheHt.find? aor with
        | some _ => c.shrinkEntry aor (withoutAlias a (c.entry aor))
        | none => c).removeAlias hashlittle a := by
  unfold RegisterCache.remove entry
  rw [if_neg haor]
  cases c.regCacheHt.find? aor with
  | none | some e => rfl

theorem removeAlias_regCacheHt : (c.removeAlias hashlittle a).regCacheHt = c.regCacheHt := by
  unfold removeAlias
  cases c.findAliasEntry a with
  | none | some ae => rfl

theorem foldl_removeAlias_regCacheHt :
    ∀ (l : List (Str × RegBinding)) (c : RegisterCache),
      (l.foldl (fun c b => c.removeAlias hashlittle b.2.aliasName) c).regCacheHt = c.regCacheHt
  | [], _ => rfl
  | _ :: l, _ => (foldl_removeAlias_regCacheHt l _).trans removeAlias_regCacheHt

end Lookups

/-! ## The invariant -/

variable {hashlittle : Str → BitVec 32 → BitVec 32}

/-- What the counter has more than there are bindings. -/
def excess (c : RegisterCache) : ℤ :=
  c.activeRegs - c.bindings

variable (hashlittle) in
/-- The bindings and the contact index find the alias entries, and the counter counts the
bindings. -/
structure Agrees (c : RegisterCache) : Prop where
  bound : Indexes place c.findAliasEntry c.names
  listed : Indexes (spot hashlittle) c.findAliasEntry c.contacts
  proper : ∀ a, ∀ ae ∈ c.findAliasEntry a, a ≠ [] ∧ '/' ∉ ae.sourceIp
  counted : c.excess = 0

namespace Agrees

variable {c c' : RegisterCache} {a : Str} {ae ae' : AliasEntry}

theorem empty : RegisterCache.empty.Agrees hashlittle where
  bound := Indexes.empty
  listed := Indexes.empty
  proper := nofun
  counted := rfl

variable (h : c.Agrees hashlittle)

include h

/-- The entry of one alias changes, and with it the place and the contact of the alias. -/
theorem of_update {e : Option AliasEntry} {names' : Str × Str → Option Str}
    {contacts' : BitVec 32 × Str → Option Str}
    (hfind : c'.findAliasEntry = Function.update c.findAliasEntry a e)
    (hbound : Indexes place (Function.update c.findAliasEntry a e) names')
    (hlisted : Indexes (spot hashlittle) (Function.update c.findAliasEntry a e) contacts')
    (hproper : e.elim True fun ae => a ≠ [] ∧ '/' ∉ ae.sourceIp) (hnames : c'.names = names')
    (hcontacts : c'.contacts = contacts') (hexcess : c'.excess = c.excess) :
    c'.Agrees hashlittle where
  bound := hfind ▸ hnames ▸ hbound
  listed := hfind ▸ hcontacts ▸ hlisted
  proper a' ae he := by
    rw [hfind] at he
    by_cases ha : a' = a
    · rw [ha, update_self] at he
      rw [he] at hproper
      exact ha ▸ hproper
    · rw [update_of_ne ha] at he
      exact h.proper a' ae he
  counted := hexcess.trans h.counted

/-! ## The operations -/

theorem updateAliasExpires (a : Str) (t : ℤ) : (c.updateAliasExpires a t).1.Agrees hashlittle := by
  unfold RegisterCache.updateAliasExpires
  cases ha : c.findAliasEntry a with
  | none => exact h
  | some ae =>
    exact h.of_update findAliasEntry_storeAlias (h.bound.replace ha rfl) (h.listed.replace ha rfl)
      (h.proper a ae ha) rfl rfl rfl

/-- A contact that no entry has. -/
theorem contacts_eq_none {uri ip : Str} {port : BitVec 16}
    (hfree : c.findAEByContact hashlittle uri ip port = none) :
    c.contacts (getContactBucket hashlittle uri ip port, contactKey uri ip port) = none := by
  cases hk : c.contacts (getContactBucket hashlittle uri ip port, contactKey uri ip port) with
  | none => rfl
  | some a =>
    obtain ⟨ae, hae, -⟩ := (h.listed _ a).1 hk
    have hname : c.contactAlias hashlittle uri ip port = a := by
      rw [contactAlias_eq, hk]
      rfl
    unfold findAEByContact at hfree
    rw [hname, if_neg (h.proper a ae hae).1, hae] at hfree
    exact absurd hfree nofun

end Agrees

variable (hashlittle) in
/-- The update has an alias and a contact that no other binding has. -/
def Fresh (c : RegisterCache) (a : Str) (au : AliasEntry) : Prop :=
  c.findAliasEntry a = none ∧
    c.findAEByContact hashlittle au.contactUri au.sourceIp au.sourcePort = none

/-- The port of the alias is the port of the update. -/
def SamePort (c : RegisterCache) (a : Str) (au : AliasEntry) : Prop :=
  ∀ ae ∈ c.findAliasEntry a, ae.sourcePort = au.sourcePort

/-- An update that is refused. -/
def Refused (au : AliasEntry) : Prop :=
  au.aor = [] ∨ au.contactUri = [] ∨ au.sourceIp = []

variable (hashlittle) in
/-- The condition under which an operation keeps the indexes together. -/
def Regular (c : RegisterCache) : Op → Prop
  | .updateAliased a _ au =>
    Refused au ∨ a ≠ [] ∧ '/' ∉ au.sourceIp ∧
      match (c.entry au.aor).find? (bindingIdx au.contactUri au.sourceIp) with
      | some b => b.aliasName = a ∧ SamePort c a au
      | none => Fresh hashlittle c a au
  | .update _ au =>
    Refused au ∨ '/' ∉ au.sourceIp ∧
      match (c.entry au.aor).entries.head? with
      | some (idx, b) =>
        if idx = bindingIdx au.contactUri au.sourceIp then SamePort c b.aliasName au
        else (c.entry au.aor).find? (bindingIdx au.contactUri au.sourceIp) = none ∧
          c.findAEByContact hashlittle au.contactUri au.sourceIp au.sourcePort = none
      | none => Fresh hashlittle c (computeAliasHash hashlittle au.aor au.contactUri au.sourceIp) au
  | .updateAliasExpires _ _ => True
  | .remove canonAor _ a => canonAor = [] ∨ ∀ ae ∈ c.findAliasEntry a, ae.aor = canonAor
  | .removeAor _ => True

namespace Agrees

variable {c c' : RegisterCache} {a : Str} {ae ae' : AliasEntry}

variable (h : c.Agrees hashlittle)

include h

variable {au : AliasEntry}
variable {t : ℤ}

/-- A new binding, as both updates insert it. -/
theorem insertBinding {n : Str} (hfresh : Fresh hashlittle c a au)
    (hproper : a ≠ [] ∧ '/' ∉ au.sourceIp)
    (hidx : (c.entry au.aor).find? (bindingIdx au.contactUri au.sourceIp) = none) :
    ((({ c with activeRegs := c.activeRegs + 1 }.setEntry au.aor
      ((c.entry au.aor).emplace (bindingIdx au.contactUri au.sourceIp) ⟨t, a⟩)).contactInsert
        hashlittle au.contactUri au.sourceIp au.sourcePort a).storeAlias a
          { au with aliasName := n }).Agrees hashlittle := by
  have hfree := h.contacts_eq_none hfresh.2
  rw [emplace_eq_insert hidx]
  refine h.of_update findAliasEntry_storeAlias (h.bound.insert hfresh.1 ?_)
    (h.listed.insert hfresh.1 hfree) hproper (names_update (entry_setEntry _ _) find?_insert_update)
    (contacts_contactInsert hfree) ?_
  · simp only [names, place, hidx, map_none]
  · have hcount := bindings_setEntry (c := c) au.aor
      ((c.entry au.aor).insert (bindingIdx au.contactUri au.sourceIp) ⟨t, a⟩)
    rw [length_insert hidx] at hcount
    show c.activeRegs + 1 - ((c.setEntry au.aor _).bindings : ℤ) = c.activeRegs - c.bindings
    omega

/-- A binding under the same key, as both updates change it. -/
theorem refresh {b : RegBinding} {n : Str}
    (hb : (c.entry au.aor).find? (bindingIdx au.contactUri au.sourceIp) = some b)
    (hport : SamePort c b.aliasName au) (hslash : '/' ∉ au.sourceIp) :
    ((c.setEntry au.aor ((c.entry au.aor).insert (bindingIdx au.contactUri au.sourceIp)
      { b with regExpire := t })).storeAlias b.aliasName { au with aliasName := n }).Agrees
        hashlittle := by
  obtain ⟨ae, hae, hplace⟩ := exists_entry h.bound hb
  obtain ⟨huri, hip⟩ := bindingIdx_inj (h.proper _ _ hae).2 hslash (Prod.mk.inj hplace).2
  refine h.of_update findAliasEntry_storeAlias (h.bound.replace hae hplace.symm)
    (h.listed.replace hae ?_) ⟨(h.proper _ _ hae).1, hslash⟩ ?_ rfl ?_
  · simp only [spot, huri, hip, hport ae hae]
  · refine (names_update (entry_setEntry _ _) find?_insert_update).trans ?_
    refine update_eq_self_iff.2 ?_
    simp only [names, hb, map_some]
  · have hcount := bindings_setEntry (c := c) au.aor
      ((c.entry au.aor).insert (bindingIdx au.contactUri au.sourceIp) { b with regExpire := t })
    rw [length_insert_of_some hb] at hcount
    show c.activeRegs - ((c.setEntry au.aor _).bindings : ℤ) = c.activeRegs - c.bindings
    omega

/-- A binding under another key, with its contact moved in the contact index. -/
theorem relink {idx : Str} {b : RegBinding} (hb : (c.entry au.aor).find? idx = some b)
    (hne : idx ≠ bindingIdx au.contactUri au.sourceIp)
    (hidx : (c.entry au.aor).find? (bindingIdx au.contactUri au.sourceIp) = none)
    (hfree : c.findAEByContact hashlittle au.contactUri au.sourceIp au.sourcePort = none)
    (hslash : '/' ∉ au.sourceIp) :
    (((c.changeContact hashlittle b.aliasName au.contactUri au.sourceIp
      au.sourcePort).setEntry au.aor (((c.entry au.aor).erase idx).emplace
        (bindingIdx au.contactUri au.sourceIp) { b with regExpire := t })).storeAlias b.aliasName
          { au with aliasName := b.aliasName }).Agrees hashlittle := by
  obtain ⟨ae, hae, hplace⟩ := exists_entry h.bound hb
  have hspot := h.contacts_eq_none hfree
  have hidx' : ((c.entry au.aor).erase idx).find? (bindingIdx au.contactUri au.sourceIp) =
      none := by
    rw [find?_erase_update, update_of_ne hne.symm, hidx]
  have hchange : c.changeContact hashlittle b.aliasName au.contactUri au.sourceIp au.sourcePort =
      (c.contactRemove hashlittle ae.contactUri ae.sourceIp ae.sourcePort).contactInsert hashlittle
        au.contactUri au.sourceIp au.sourcePort b.aliasName := by
    unfold changeContact
    rw [hae]
  rw [emplace_eq_insert hidx', hchange]
  refine h.of_update findAliasEntry_storeAlias (h.bound.rekey hae (.inr ?_))
    (h.listed.rekey hae (.inr hspot)) ⟨(h.proper _ _ hae).1, hslash⟩ ?_ ?_ ?_
  · simp only [names, place, hidx, map_none]
  · rw [hplace]
    -- the binding leaves its old key before it gets the new one
    have herase : (c.setEntry au.aor ((c.entry au.aor).erase idx)).names =
        Function.update c.names (au.aor, idx) none :=
      names_update (entry_setEntry _ _) find?_erase_update
    rw [← herase]
    refine names_update (b := some ⟨t, b.aliasName⟩)
      (e := ((c.entry au.aor).erase idx).insert (bindingIdx au.contactUri au.sourceIp)
        ⟨t, b.aliasName⟩) ?_ ?_
    · refine (entry_setEntry au.aor _).trans ?_
      rw [entry_setEntry, update_idem]
      rfl
    · rw [entry_setEntry, update_self]
      exact find?_insert_update
  · have hremove : (c.contactRemove hashlittle ae.contactUri ae.sourceIp ae.sourcePort).contacts
        (getContactBucket hashlittle au.contactUri au.sourceIp au.sourcePort,
          contactKey au.contactUri au.sourceIp au.sourcePort) = none := by
      rw [contacts_contactRemove, update_apply]
      split_ifs
      · rfl
      · exact hspot
    refine (contacts_contactInsert hremove).trans ?_
    rw [contacts_contactRemove]
    rfl
  · have hcount := bindings_setEntry (c := c) au.aor
      (((c.entry au.aor).erase idx).insert (bindingIdx au.contactUri au.sourceIp)
        { b with regExpire := t })
    rw [length_insert hidx', ← length_erase hb] at hcount
    show c.activeRegs - ((c.setEntry au.aor _).bindings : ℤ) = c.activeRegs - c.bindings
    omega

/-- Both updates leave the cache to one that is refused. -/
theorem unless_refused (h' : ¬ Refused au → c'.Agrees hashlittle) :
    (if au.aor = [] then c else if au.contactUri = [] then c else if au.sourceIp = [] then c
      else c').Agrees hashlittle := by
  split_ifs with haor huri hip
  · exact h
  · exact h
  · exact h
  · exact h' (by simp [Refused, haor, huri, hip])

theorem updateAliased (hreg : Regular hashlittle c (.updateAliased a t au)) :
    (c.updateAliased hashlittle a t au).Agrees hashlittle := by
  unfold RegisterCache.updateAliased
  refine h.unless_refused fun hau => ?_
  obtain ⟨ha, hslash, hcase⟩ := hreg.resolve_left hau
  simp only
  cases hb : (c.entry au.aor).find? (bindingIdx au.contactUri au.sourceIp) with
  | none =>
    rw [hb] at hcase
    exact h.insertBinding hcase ⟨ha, hslash⟩ hb
  | some b =>
    rw [hb] at hcase
    obtain ⟨rfl, hport⟩ := hcase
    exact h.refresh hb hport hslash

theorem update (hreg : Regular hashlittle c (.update t au)) :
    (c.update hashlittle t au).Agrees hashlittle := by
  unfold RegisterCache.update
  refine h.unless_refused fun hau => ?_
  obtain ⟨hslash, hcase⟩ := hreg.resolve_left hau
  simp only
  cases hhead : (c.entry au.aor).entries.head? with
  | none =>
    rw [hhead] at hcase
    have hnil := head?_eq_none_iff.1 hhead
    have hidx : (c.entry au.aor).find? (bindingIdx au.contactUri au.sourceIp) = none := by
      rw [find?_eq_none_iff, hnil]
      nofun
    exact h.insertBinding hcase ⟨computeAliasHash_ne_nil, hslash⟩ hidx
  | some e =>
    obtain ⟨idx, b⟩ := e
    rw [hhead] at hcase
    have hb := find?_eq_some_iff.2 (mem_of_head? hhead)
    by_cases hidx : idx = bindingIdx au.contactUri au.sourceIp
    · subst hidx
      simp only [if_pos] at hcase
      simp only [ne_eq, not_true_eq_false, if_false]
      exact h.refresh hb hcase hslash
    · simp only [if_neg hidx] at hcase
      simp only [ne_eq, hidx, not_false_eq_true, if_true]
      exact h.relink hb hidx hcase.1 hcase.2 hslash

/-! ## The end of a binding -/

variable {m : OrdMap Str AorEntry}

/-- An alias ends with its binding. -/
theorem dropAlias (ha : c.findAliasEntry a = some ae) {e : AorEntry}
    (hentry : (c.withHt m).entry = Function.update c.entry ae.aor e)
    (hfind : e.find? = Function.update (c.entry ae.aor).find?
      (bindingIdx ae.contactUri ae.sourceIp) none)
    (hcount : (c.withHt m).bindings + 1 = c.bindings) :
    ((c.removeAlias hashlittle a).withHt m).Agrees hashlittle := by
  have hremove : c.removeAlias hashlittle a =
      { c.contactRemove hashlittle ae.contactUri ae.sourceIp ae.sourcePort with
        activeRegs := c.activeRegs - 1
        idIdx := c.idIdx.erase a } := by
    unfold removeAlias
    rw [ha]
    rfl
  rw [hremove]
  refine h.of_update find?_erase_update (h.bound.erase ha) (h.listed.erase ha) trivial
    (names_update hentry hfind) contacts_contactRemove ?_
  show c.activeRegs - 1 - ((c.withHt m).bindings : ℤ) = c.activeRegs - c.bindings
  omega

/-- The bindings with other aliases are all but the one of the alias. -/
theorem withoutAlias_eq (ha : c.findAliasEntry a = some ae) :
    withoutAlias a (c.entry ae.aor) =
      (c.entry ae.aor).erase (bindingIdx ae.contactUri ae.sourceIp) := by
  unfold withoutAlias OrdMap.erase
  congr 1
  refine filter_congr fun e he => ?_
  have hb := find?_eq_some_iff.2 he
  obtain ⟨ae', hae', hplace⟩ := exists_entry h.bound hb
  refine decide_eq_decide.2 (not_congr ?_)
  constructor
  · intro hname
    rw [hname, ha] at hae'
    rw [← some_inj.1 hae'] at hplace
    exact (Prod.mk.inj hplace).2.symm
  · intro hidx
    have hplace' : ae'.place = ae.place := by
      rw [hplace, hidx]
      rfl
    exact h.bound.eq_of_key hae' ha hplace'

theorem withoutAlias_eq_self (ha : c.findAliasEntry a = none) (aor : Str) :
    withoutAlias a (c.entry aor) = c.entry aor := by
  have hall : (c.entry aor).entries.filter (fun b => b.2.aliasName ≠ a) =
      (c.entry aor).entries := by
    refine filter_eq_self.2 fun e he => ?_
    obtain ⟨ae, hae, -⟩ := exists_entry h.bound (find?_eq_some_iff.2 he)
    simp only [decide_not, Bool.not_eq_true', decide_eq_false_iff_not]
    intro hname
    rw [hname, ha] at hae
    exact absurd hae nofun
  unfold withoutAlias
  congr 1

/-- The table of bindings is only read through the entries, and their number. -/
theorem congr_ht (hentry : (c.withHt m).entry = c.entry)
    (hcount : (c.withHt m).bindings = c.bindings) :
    (c.withHt m).Agrees hashlittle where
  bound := by
    have hnames : (c.withHt m).names = c.names := by
      unfold names
      rw [hentry]
    rw [hnames]
    exact h.bound
  listed := h.listed
  proper := h.proper
  counted := by
    unfold excess
    rw [hcount]
    exact h.counted

theorem remove {aor uri : Str} (hreg : Regular hashlittle c (.remove aor uri a)) :
    (c.remove hashlittle aor uri a).Agrees hashlittle := by
  by_cases haor : aor = []
  · unfold RegisterCache.remove
    rwa [if_pos haor]
  rw [remove_eq haor]
  cases ha : c.findAliasEntry a with
  | none =>
    -- no binding has the alias
    rw [h.withoutAlias_eq_self ha]
    cases hht : c.regCacheHt.find? aor with
    | none => rwa [removeAlias_none ha]
    | some e =>
      have hcount := bindings_shrinkEntry (c := c) aor (c.entry aor)
      rw [shrinkEntry_eq, removeAlias_ht, removeAlias_none ha]
      refine h.congr_ht ?_ ?_
      · exact entry_shrinkEntry.trans (update_eq_self ..)
      · exact Nat.add_right_cancel hcount
  | some ae =>
    obtain rfl := hreg.resolve_left haor ae ha
    obtain ⟨b, hfind, -⟩ := map_eq_some_iff.1 (h.bound.index_key ha)
    dsimp only [place] at hfind
    cases hht : c.regCacheHt.find? ae.aor with
    | none =>
      rw [entry, hht] at hfind
      exact absurd hfind nofun
    | some e =>
      have hcount := bindings_shrinkEntry (c := c) ae.aor (withoutAlias a (c.entry ae.aor))
      rw [h.withoutAlias_eq ha, length_erase hfind] at hcount
      rw [shrinkEntry_eq, removeAlias_ht, h.withoutAlias_eq ha]
      refine h.dropAlias ha entry_shrinkEntry find?_erase_update ?_
      show (c.shrinkEntry _ _).bindings + 1 = c.bindings
      omega

omit h in
/-- The loop of `removeAor` over the bindings left. -/
theorem removeLoop {aor : Str} :
    ∀ (l : List (Str × RegBinding)) (hl : l.Pairwise fun a b => a.1 < b.1) {c : RegisterCache},
      (c.withHt (m.insert aor ⟨l, hl⟩)).Agrees hashlittle →
        ((l.foldl (fun c b => c.removeAlias hashlittle b.2.aliasName) c).withHt
          (m.erase aor)).Agrees hashlittle
  | [], hl, c, h => by
    refine h.congr_ht (m := m.erase aor) ?_ ?_
    · exact (entry_erase (c := c.withHt m) aor).trans
        (entry_setEntry (c := c.withHt m) aor ⟨[], hl⟩).symm
    · have herase := bindings_erase (c := c.withHt m) aor
      have hset := bindings_setEntry (c := c.withHt m) aor ⟨[], hl⟩
      exact Nat.add_right_cancel (herase.trans hset.symm)
  | (idx, b) :: l, hl, c, h => by
    have hset := entry_setEntry (c := c.withHt m) aor ⟨(idx, b) :: l, hl⟩
    have hset' := entry_setEntry (c := c.withHt m) aor ⟨l, hl.tail⟩
    have hentry : (c.withHt (m.insert aor ⟨(idx, b) :: l, hl⟩)).entry aor =
        ⟨(idx, b) :: l, hl⟩ := by
      exact (congrFun hset aor).trans (update_self ..)
    have hb : (⟨(idx, b) :: l, hl⟩ : AorEntry).find? idx = some b :=
      find?_eq_some_iff.2 mem_cons_self
    obtain ⟨ae, hae, hplace⟩ := exists_entry h.bound (hentry ▸ hb)
    obtain ⟨haor, hidx⟩ := Prod.mk.inj hplace
    subst haor
    have hdrop := h.dropAlias hae (m := m.insert ae.aor ⟨l, hl.tail⟩) (e := ⟨l, hl.tail⟩) ?_ ?_ ?_
    · rw [removeAlias_ht] at hdrop
      exact removeLoop l hl.tail hdrop
    · refine hset'.trans ?_
      rw [← update_idem, ← hset]
      rfl
    · rw [hentry, hidx, ← find?_erase_update, erase_head hl]
    · have hcount := bindings_setEntry (c := c.withHt m) ae.aor
        ⟨(idx, b) :: l, hl⟩
      have hcount' := bindings_setEntry (c := c.withHt m) ae.aor ⟨l, hl.tail⟩
      rw [length_cons, ← Nat.add_assoc, ← hcount'] at hcount
      refine Nat.add_right_cancel (m := ((c.withHt m).entry ae.aor).entries.length) ?_
      exact (Nat.add_right_comm _ _ _).trans hcount.symm

theorem removeAor (aor : Str) : (c.removeAor hashlittle aor).Agrees hashlittle := by
  unfold RegisterCache.removeAor
  split_ifs with haor
  · exact h
  cases hht : c.regCacheHt.find? aor with
  | none => exact h
  | some e =>
    have hentry : c.entry aor = e := by
      rw [entry, hht]
      rfl
    simp only [foldl_removeAlias_regCacheHt]
    refine removeLoop e.entries e.sorted (h.congr_ht ?_ ?_)
    · refine (entry_setEntry aor e).trans ?_
      rw [← hentry, update_eq_self]
    · have hcount := bindings_setEntry (c := c) aor e
      rw [hentry] at hcount
      exact Nat.add_right_cancel hcount

theorem step {op : Op} (hreg : Regular hashlittle c op) :
    (c.step hashlittle op).Agrees hashlittle := by
  cases op with
  | updateAliased a t au => exact h.updateAliased hreg
  | update t au => exact h.update hreg
  | updateAliasExpires a t => exact h.updateAliasExpires a t
  | remove aor uri a => exact h.remove hreg
  | removeAor aor => exact h.removeAor aor

end Agrees

/-! ## Runs -/

/-- The contact lookup finds the entry with the contact, and nothing where there is none. -/
theorem Agrees.findAEByContact_iff {c : RegisterCache} (h : c.Agrees hashlittle) {uri ip : Str}
    {port : BitVec 16} (hip : '/' ∉ ip) {ae : AliasEntry} :
    c.findAEByContact hashlittle uri ip port = some ae ↔
      (∃ a, c.findAliasEntry a = some ae) ∧ ae.contactUri = uri ∧ ae.sourceIp = ip ∧
        ae.sourcePort = port := by
  constructor
  · intro hae
    unfold findAEByContact at hae
    rw [contactAlias_eq] at hae
    cases hk : c.contacts (getContactBucket hashlittle uri ip port, contactKey uri ip port) with
    | none =>
      rw [hk] at hae
      exact absurd hae nofun
    | some a =>
      obtain ⟨ae', hae', hspot⟩ := (h.listed _ a).1 hk
      rw [hk, getD_some, if_neg (h.proper a ae' hae').1, hae', some_inj] at hae
      subst hae
      exact ⟨⟨a, hae'⟩, contactKey_inj (h.proper a ae' hae').2 hip (Prod.mk.inj hspot).2⟩
  · rintro ⟨⟨a, ha⟩, rfl, rfl, rfl⟩
    have hk := h.listed.index_key ha
    unfold findAEByContact
    rw [contactAlias_eq]
    unfold spot at hk
    rw [hk, getD_some, if_neg (h.proper a ae ha).1, ha]

/-- In every run of regular operations each binding names an alias whose entry has its address of
record, contact URI and source IP, a contact finds the entry that has it, and the counter is the
number of bindings. -/
theorem registerCache_runs (hashlittle : Str → BitVec 32 → BitVec 32) (ops : List Op)
    (hrun : RunOk (step hashlittle) (Regular hashlittle) empty ops) :
    let c := runFrom (step hashlittle) empty ops
    (∀ aor idx b, (c.entry aor).find? idx = some b →
      ∃ ae, c.findAliasEntry b.aliasName = some ae ∧ ae.aor = aor ∧
        idx = bindingIdx ae.contactUri ae.sourceIp) ∧
    (∀ uri ip port ae, '/' ∉ ip →
      (c.findAEByContact hashlittle uri ip port = some ae ↔
        (∃ a, c.findAliasEntry a = some ae) ∧ ae.contactUri = uri ∧ ae.sourceIp = ip ∧
          ae.sourcePort = port)) ∧
    c.activeRegs = c.bindings := by
  intro c
  have h : c.Agrees hashlittle := RunOk.inv (fun h hreg => h.step hreg) Agrees.empty hrun
  refine ⟨fun aor idx b hb => ?_, fun uri ip port ae hip => h.findAEByContact_iff hip, ?_⟩
  · obtain ⟨ae, hae, hplace⟩ := exists_entry h.bound hb
    obtain ⟨haor, hidx⟩ := Prod.mk.inj hplace
    exact ⟨ae, hae, haor, hidx.symm⟩
  · have hcount := h.counted
    unfold excess at hcount
    omega

/-- A contact of an address of record. -/
def contactUpdate (aor : Str) (port : BitVec 16) (t : ℤ) : AliasEntry where
  aor := aor
  contactUri := "sip:ua@h".toList
  aliasName := []
  sourceIp := "10.0.0.1".toList
  sourcePort := port
  trsp := "udp".toList
  localIf := 0
  remoteUa := []
  uaExpire := t

theorem registerCache_runs_renewed :
    let hashlittle : Str → BitVec 32 → BitVec 32 := fun _ h => h
    let ops : List Op := [.update 60 (contactUpdate "sip:a@d".toList 5060 30),
      .update 90 (contactUpdate "sip:a@d".toList 5060 60), .removeAor "sip:a@d".toList]
    RunOk (step hashlittle) (Regular hashlittle) empty ops ∧
      (runFrom (step hashlittle) empty ops).activeRegs =
        (runFrom (step hashlittle) empty ops).bindings := by
  intro hashlittle ops
  have hrun : RunOk (step hashlittle) (Regular hashlittle) empty ops := by
    refine ⟨.inr ⟨by decide, ?_⟩, .inr ⟨by decide, ?_⟩, trivial, trivial⟩
    · exact ⟨by decide +kernel, by decide +kernel⟩
    · show SamePort _ _ _
      unfold SamePort
      decide +kernel
  exact ⟨hrun, (registerCache_runs hashlittle ops hrun).2.2⟩

/-- A register request from another port leaves the old port in the contact index, and the new
one out of it. -/
theorem update_port_stale :
    let hashlittle : Str → BitVec 32 → BitVec 32 := fun _ h => h
    let c := runFrom (step hashlittle) empty
      [.update 60 (contactUpdate "sip:a@d".toList 5060 30),
        .update 90 (contactUpdate "sip:a@d".toList 5070 60)]
    (c.findAEByContact hashlittle "sip:ua@h".toList "10.0.0.1".toList 5060).map
        sourcePort = some 5070 ∧
      c.findAEByContact hashlittle "sip:ua@h".toList "10.0.0.1".toList 5070 = none := by
  decide +kernel

end RegisterCache

end Sems
