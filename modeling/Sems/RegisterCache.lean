import Sems.OrdMap
import Sems.SipMsg

/-!
# The register cache

The tables of `_RegisterCache` (`apps/sbc/RegisterCache.cpp`). An address of record has its
bindings under their contact URI and source IP, a binding names an alias, an alias has an entry
with its contact, and the contact index finds the alias of a contact URI, source IP and source port.
`activeRegs` counts the bindings.

The buckets of the first two tables are chosen by a hash of the key alone, so each is one map. That
of the contact index is chosen by a hash of the parts of its key. `hashlittle` is a parameter.
-/

namespace Sems

/-- A binding of an address of record. -/
structure RegBinding where
  regExpire : ℤ
  aliasName : Str
  deriving DecidableEq

/-- An alias, and the contact it stands for. -/
structure AliasEntry where
  aor : Str
  contactUri : Str
  aliasName : Str
  sourceIp : Str
  sourcePort : BitVec 16
  trsp : Str
  localIf : BitVec 16
  remoteUa : Str
  uaExpire : ℤ
  deriving DecidableEq

/-- The bindings of one address of record, by contact URI and source IP. -/
abbrev AorEntry := OrdMap Str RegBinding

/-- The cache : registrations by AoR, and its two indexes. -/
structure RegisterCache where
  regCacheHt : OrdMap Str AorEntry
  idIdx : OrdMap Str AliasEntry
  contactIdx : BitVec 32 → OrdMap Str Str
  activeRegs : ℤ

/-- The number of buckets. -/
def REG_CACHE_TABLE_ENTRIES : BitVec 32 := 1024

/-- The key of a binding. -/
def bindingIdx (uri publicIp : Str) : Str :=
  uri ++ "/".toList ++ publicIp

/-- The key of a contact. -/
def contactKey (contactUri remoteIp : Str) (remotePort : BitVec 16) : Str :=
  contactUri ++ "/".toList ++ remoteIp ++ ":".toList ++ int2str (remotePort.setWidth 32)

namespace RegisterCache

/-- The cache at the start. -/
def empty : RegisterCache where
  regCacheHt := OrdMap.empty
  idIdx := OrdMap.empty
  contactIdx := fun _ => OrdMap.empty
  activeRegs := 0

variable (c : RegisterCache)

/-- The bindings of an address of record. -/
def entry (aor : Str) : AorEntry :=
  (c.regCacheHt.find? aor).getD OrdMap.empty

/-- The binding of a contact URI and a source IP. -/
def getAlias (canonAor uri publicIp : Str) : Option RegBinding :=
  if canonAor = [] then none else (c.entry canonAor).find? (bindingIdx uri publicIp)

/-- `findAliasEntry`. -/
def findAliasEntry (aliasName : Str) : Option AliasEntry :=
  c.idIdx.find? aliasName

/-- The contact URIs of an address of record by their aliases. -/
def getAorAliasMap (canonAor : Str) : Option (OrdMap Str Str) :=
  if canonAor = [] then none
  else some ((c.entry canonAor).entries.foldl (fun aliasMap e =>
    match c.findAliasEntry e.2.aliasName with
    | some ae => aliasMap.insert ae.aliasName ae.contactUri
    | none => aliasMap) OrdMap.empty)

/-- Insert the entry of an alias, or overwrite it. -/
def storeAlias (aliasName : Str) (ae : AliasEntry) : RegisterCache :=
  { c with idIdx := c.idIdx.insert aliasName ae }

/-- Set the expiry at the user agent. Returns whether there is an entry for the alias. -/
def updateAliasExpires (aliasName : Str) (uaExpires : ℤ) : RegisterCache × Bool :=
  match c.findAliasEntry aliasName with
  | some ae => (c.storeAlias aliasName { ae with uaExpire := uaExpires }, true)
  | none => (c, false)

variable (hashlittle : Str → BitVec 32 → BitVec 32)

/-- `hash_2str_1int`, cut to a bucket. -/
def hash2str1int (str1 str2 : Str) (i : BitVec 32) : BitVec 32 :=
  hashlittle str2 (hashlittle str1 i) &&& (REG_CACHE_TABLE_ENTRIES - 1)

/-- The alias of a new binding. -/
def computeAliasHash (aor contactUri publicIp : Str) : Str :=
  let h1 := hashlittle contactUri (hashlittle aor 0)
  let h2 := hashlittle publicIp h1
  int2hex h1 ++ int2hex h2

variable (c : RegisterCache) (contactUri remoteIp : Str) (remotePort : BitVec 16)

/-- The bucket of a contact. -/
def getContactBucket : BitVec 32 :=
  hash2str1int hashlittle contactUri remoteIp (remotePort.setWidth 32)

/-- Insert the alias of a contact, unless the contact has one. -/
def contactInsert (aliasName : Str) : RegisterCache :=
  let h := getContactBucket hashlittle contactUri remoteIp remotePort
  let bucket := (c.contactIdx h).emplace (contactKey contactUri remoteIp remotePort) aliasName
  { c with contactIdx := Function.update c.contactIdx h bucket }

/-- `ContactBucket::remove`. -/
def contactRemove : RegisterCache :=
  let h := getContactBucket hashlittle contactUri remoteIp remotePort
  let bucket := (c.contactIdx h).erase (contactKey contactUri remoteIp remotePort)
  { c with contactIdx := Function.update c.contactIdx h bucket }

/-- The alias of a contact, or an empty text. -/
def contactAlias : Str :=
  ((c.contactIdx (getContactBucket hashlittle contactUri remoteIp remotePort)).find?
    (contactKey contactUri remoteIp remotePort)).getD []

/-- `findAEByContact`. -/
def findAEByContact : Option AliasEntry :=
  let aliasName := c.contactAlias hashlittle contactUri remoteIp remotePort
  if aliasName = [] then none else c.findAliasEntry aliasName

/-- Put the bindings of an address of record in the place of the old ones. -/
def setEntry (aor : Str) (e : AorEntry) : RegisterCache :=
  { c with regCacheHt := c.regCacheHt.insert aor e }

/-- `update` with an alias. -/
def updateAliased (aliasName : Str) (regExpires : ℤ) (aliasUpdate : AliasEntry) : RegisterCache :=
  let uri := aliasUpdate.contactUri
  let canonAor := aliasUpdate.aor
  let publicIp := aliasUpdate.sourceIp
  if canonAor = [] then c
  else if uri = [] then c
  else if publicIp = [] then c
  else
    let aorE := c.entry canonAor
    let c := match aorE.find? (bindingIdx uri publicIp) with
      | none =>
        let c := { c with activeRegs := c.activeRegs + 1 }.setEntry canonAor
          (aorE.emplace (bindingIdx uri publicIp) ⟨regExpires, aliasName⟩)
        c.contactInsert hashlittle uri publicIp aliasUpdate.sourcePort aliasName
      -- a binding keeps its alias, whatever the alias used
      | some binding =>
        c.setEntry canonAor
          (aorE.insert (bindingIdx uri publicIp) { binding with regExpire := regExpires })
    c.storeAlias aliasName aliasUpdate

/-- Move the contact of an alias in the contact index. -/
def changeContact (aliasName : Str) (uri publicIp : Str) (sourcePort : BitVec 16) : RegisterCache :=
  match c.findAliasEntry aliasName with
  | some ae =>
    (c.contactRemove hashlittle ae.contactUri ae.sourceIp ae.sourcePort).contactInsert hashlittle
      uri publicIp sourcePort aliasName
  | none => c

/-- `update` of the only binding of an address of record. -/
def update (regExpires : ℤ) (aliasUpdate : AliasEntry) : RegisterCache :=
  let uri := aliasUpdate.contactUri
  let canonAor := aliasUpdate.aor
  let publicIp := aliasUpdate.sourceIp
  if canonAor = [] then c
  else if uri = [] then c
  else if publicIp = [] then c
  else
    let idx := bindingIdx uri publicIp
    let aorE := c.entry canonAor
    match aorE.entries.head? with
    | some (idx', binding) =>
      let binding' := { binding with regExpire := regExpires }
      let c :=
        if idx' ≠ idx then
          (c.changeContact hashlittle binding.aliasName uri publicIp
            aliasUpdate.sourcePort).setEntry canonAor ((aorE.erase idx').emplace idx binding')
        else c.setEntry canonAor (aorE.insert idx binding')
      c.storeAlias binding.aliasName { aliasUpdate with aliasName := binding.aliasName }
    | none =>
      let aliasName := computeAliasHash hashlittle canonAor uri publicIp
      let c := { c with activeRegs := c.activeRegs + 1 }.setEntry canonAor
        (aorE.emplace idx ⟨regExpires, aliasName⟩)
      let c := c.contactInsert hashlittle uri publicIp aliasUpdate.sourcePort aliasName
      c.storeAlias aliasName { aliasUpdate with aliasName := aliasName }

/-- Remove the entry of an alias with its contact. -/
def removeAlias (aliasName : Str) : RegisterCache :=
  let c := match c.findAliasEntry aliasName with
    | some ae =>
      { c.contactRemove hashlittle ae.contactUri ae.sourceIp ae.sourcePort with
        activeRegs := c.activeRegs - 1 }
    | none => c
  { c with idIdx := c.idIdx.erase aliasName }

/-- The bindings with other aliases. -/
def withoutAlias (aliasName : Str) (e : AorEntry) : AorEntry :=
  ⟨e.entries.filter fun b => b.2.aliasName ≠ aliasName, e.sorted.filter _⟩

/-- Put the bindings of an address of record in the place of the old ones, or remove it with its
last one. -/
def shrinkEntry (aor : Str) (e : AorEntry) : RegisterCache :=
  if e.entries = [] then { c with regCacheHt := c.regCacheHt.erase aor } else c.setEntry aor e

/-- `remove` of one alias. The URI is not looked at. -/
def remove (canonAor _uri aliasName : Str) : RegisterCache :=
  if canonAor = [] then c
  else
    let c := match c.regCacheHt.find? canonAor with
      | some aorE => c.shrinkEntry canonAor (withoutAlias aliasName aorE)
      | none => c
    c.removeAlias hashlittle aliasName

/-- `remove` of a whole address of record. -/
def removeAor (aor : Str) : RegisterCache :=
  if aor = [] then c
  else
    match c.regCacheHt.find? aor with
    | some aorE =>
      let c := aorE.entries.foldl (fun c b => c.removeAlias hashlittle b.2.aliasName) c
      { c with regCacheHt := c.regCacheHt.erase aor }
    | none => c

/-- The operations that change the cache. -/
inductive Op where
  | updateAliased (aliasName : Str) (regExpires : ℤ) (aliasUpdate : AliasEntry)
  | update (regExpires : ℤ) (aliasUpdate : AliasEntry)
  | updateAliasExpires (aliasName : Str) (uaExpires : ℤ)
  | remove (canonAor uri aliasName : Str)
  | removeAor (aor : Str)

/-- One call of the cache. -/
def step : Op → RegisterCache
  | .updateAliased aliasName regExpires aliasUpdate =>
    c.updateAliased hashlittle aliasName regExpires aliasUpdate
  | .update regExpires aliasUpdate => c.update hashlittle regExpires aliasUpdate
  | .updateAliasExpires aliasName uaExpires => (c.updateAliasExpires aliasName uaExpires).1
  | .remove canonAor uri aliasName => c.remove hashlittle canonAor uri aliasName
  | .removeAor aor => c.removeAor hashlittle aor

/-- The number of bindings. -/
def bindings : ℕ :=
  c.regCacheHt.sum fun e => e.entries.length

end RegisterCache

end Sems
