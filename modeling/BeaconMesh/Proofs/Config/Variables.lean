import BeaconMesh.Config
import BeaconMesh.Proofs.Beacon.Making
import BeaconMesh.Proofs.Bytes.HexText
import BeaconMesh.Proofs.Key.Identity
import BeaconMesh.Proofs.Text.Entries

/-!
The configuration, variable by variable: what every field means, that each variable is judged on its
own, and which fault is reported of several.
-/

set_option autoImplicit false
set_option relaxedAutoImplicit false

namespace BeaconMesh.Config

open Net (SocketAddress)
open Text (Dressed Lists)

inductive Variable where
  | httpAddress
  | peers
  | ttl
  | interval
  | notify
  | addressBook
  | secret
  deriving DecidableEq

namespace Variable

def name : Variable → String
  | .httpAddress => "LANTERN_HTTP_ADDR"
  | .peers => "LANTERN_PEERS"
  | .ttl => "LANTERN_BEACON_TTL_SECS"
  | .interval => "LANTERN_ANNOUNCE_SECS"
  | .notify => "LANTERN_NOTIFY"
  | .addressBook => "LANTERN_ADDRESS_BOOK"
  | .secret => "LANTERN_SECRET_KEY"

/-- All variables in the order in which they are judged. -/
def all : List Variable := [.httpAddress, .peers, .ttl, .interval, .notify, .addressBook, .secret]

theorem mem_all (v : Variable) : v ∈ all := by cases v <;> decide

theorem name_injective : Function.Injective name := by
  intro v w h
  cases v <;> cases w <;> first | rfl | exact absurd h (by decide)

def Field : Variable → Type
  | .httpAddress => SocketAddress
  | .peers => List SocketAddress
  | .ttl => Duration
  | .interval => Duration
  | .notify => List PublicKey
  | .addressBook => List PublicKey
  | .secret => Option (Block 32)

def field (c : Config) : (v : Variable) → v.Field
  | .httpAddress => c.httpAddress
  | .peers => c.peers
  | .ttl => c.beaconTtl
  | .interval => c.announceInterval
  | .notify => c.notify
  | .addressBook => c.addressBook
  | .secret => c.secret

def read : (v : Variable) → Option String → Except Fault v.Field
  | .httpAddress, value => readHttpAddress value
  | .peers, value => readAll readPeer (entriesOf value)
  | .ttl, value => readTtl value
  | .interval, value => readInterval value
  | .notify, value => readAll (readKey "LANTERN_NOTIFY") (entriesOf value)
  | .addressBook, value => readAll (readKey "LANTERN_ADDRESS_BOOK") (entriesOf value)
  | .secret, value => readSecret value

def isList : Variable → Bool
  | .peers => true
  | .notify => true
  | .addressBook => true
  | _ => false

end Variable

def setting (v : Variable) (value : Option String) : String → Option String :=
  fun name => if name = v.name then value else none

def only (v : Variable) (lookup : String → Option String) : String → Option String :=
  setting v (lookup v.name)

/-- The text is a number of seconds, perhaps with white space around. -/
def IsSeconds (text : String) (n : Nat) : Prop :=
  ∃ numeral, Dressed numeral text.toList ∧ Text.IsNumeral 10 numeral n

/-- The text is the hexadecimal form of a key that is accepted. -/
def IsKey (entry : List Char) (key : PublicKey) : Prop :=
  Bytes.Hex.Spells entry key.bytes ∧ PublicKey.ofBytes key.bytes = .ok key

/-- The value lists texts of these items, in this order; an absent one lists nothing. -/
def ListsAll {α : Type} (IsText : List Char → α → Prop) (value : Option String)
    (items : List α) : Prop :=
  ∃ entries, Lists (value.getD "").toList entries ∧ List.Forall₂ IsText entries items

/-- What the configuration is to have as the field of a variable with this value. -/
def Means (c : Config) : Variable → Option String → Prop
  | .httpAddress, none => c.httpAddress = .v4 ⟨0, 0, 0, 0⟩ 8484
  | .httpAddress, some text => SocketAddress.ofChars? text.toList = some c.httpAddress
  | .peers, value =>
    ListsAll (fun entry peer => SocketAddress.ofChars? entry = some peer) value c.peers
  | .ttl, none => c.beaconTtl = .ofSecs 3600
  | .ttl, some text => ∃ n, IsSeconds text n ∧ 1 ≤ n ∧ n ≤ 86400 ∧ c.beaconTtl = .ofSecs n
  | .interval, none => c.announceInterval = .ofSecs 30
  | .interval, some text =>
    ∃ n, IsSeconds text n ∧ 1 ≤ n ∧ n < 2 ^ 64 ∧ c.announceInterval = .ofSecs n
  | .notify, value => ListsAll IsKey value c.notify
  | .addressBook, value => ListsAll IsKey value c.addressBook
  | .secret, none => c.secret = none
  | .secret, some text => ∃ digits block, Dressed digits text.toList ∧
    Bytes.Hex.Spells digits block.bytes ∧ c.secret = some block

section Readers

variable {α : Type} {read : String → Except Fault α} {c : Config} {fault : Fault}

private theorem readAll_cons_eq_ok_iff {entry : String} {entries : List String} {items : List α} :
    readAll read (entry :: entries) = .ok items ↔
      ∃ a as, read entry = .ok a ∧ readAll read entries = .ok as ∧ items = a :: as := by
  rw [readAll]
  cases read entry with
  | error fault => simp
  | ok a => cases readAll read entries <;> simp [eq_comm]

theorem readAll_eq_ok_iff {entries : List String} {items : List α} :
    readAll read entries = .ok items
      ↔ List.Forall₂ (fun entry a => read entry = .ok a) entries items := by
  induction entries generalizing items with
  | nil => cases items <;> simp [readAll]
  | cons entry entries ih =>
    rw [readAll_cons_eq_ok_iff, List.forall₂_cons_left_iff]
    simp only [ih]

theorem readHttpAddress_iff (value : Option String) :
    readHttpAddress value = .ok c.httpAddress ↔ Means c .httpAddress value := by
  cases value with
  | none => simp [Means, readHttpAddress, eq_comm]
  | some text =>
    simp only [Means, readHttpAddress]
    split <;> simp_all

theorem readPeer_eq_ok_iff {entry : List Char} {peer : SocketAddress} :
    readPeer (String.ofList entry) = .ok peer ↔ SocketAddress.ofChars? entry = some peer := by
  rw [readPeer, String.toList_ofList]
  split <;> simp_all

theorem readKey_eq_ok_iff {name : String} {entry : List Char} {key : PublicKey} :
    readKey name (String.ofList entry) = .ok key ↔ IsKey entry key := by
  constructor
  · intro h
    rw [readKey] at h
    split at h
    · cases h
    · rename_i bytes hbytes
      split at h
      · cases h
      · rename_i key' hkey
        obtain rfl := Except.ok.inj h
        obtain ⟨rfl, -⟩ := PublicKey.ofBytes_eq_ok_iff.mp hkey
        rw [Bytes.Hex.decode_eq_ok_iff, String.toList_ofList] at hbytes
        exact ⟨hbytes, hkey⟩
  · rintro ⟨hspells, hkey⟩
    have hbytes : Bytes.Hex.decode (String.ofList entry) = .ok key.bytes := by
      rwa [Bytes.Hex.decode_eq_ok_iff, String.toList_ofList]
    simp only [readKey, hbytes, hkey]

theorem isSeconds_iff {text : String} {n : Nat} :
    IsSeconds text n ↔ Text.IsNumeral 10 (Text.trimmed text.toList) n := by
  simp [IsSeconds, ← Text.trimmed_eq_iff]

theorem readSeconds_eq_ok_iff {name text : String} {d : Duration} :
    readSeconds name text = .ok d ↔ ∃ n, IsSeconds text n ∧ n < 2 ^ 64 ∧ d = .ofSecs n := by
  have hread : ∀ n, Text.readNumber 10 (UInt64.size - 1) (Text.trimmed text.toList) = .ok n
      ↔ IsSeconds text n ∧ n < 2 ^ 64 := by
    intro n
    rw [Text.readNumber_eq_ok_iff (by decide), isSeconds_iff]
    exact and_congr_right fun _ => Nat.le_sub_one_iff_lt (by decide)
  rw [readSeconds]
  split
  · rename_i fault hfault
    simp only [reduceCtorEq, false_iff]
    rintro ⟨n, hn, hbound, -⟩
    cases hfault.symm.trans ((hread n).mpr ⟨hn, hbound⟩)
  · rename_i n hn
    constructor
    · intro h
      obtain ⟨hseconds, hbound⟩ := (hread n).mp hn
      exact ⟨n, hseconds, hbound, (Except.ok.inj h).symm⟩
    · rintro ⟨n', hn', hbound, rfl⟩
      obtain rfl := Except.ok.inj (hn.symm.trans ((hread n').mpr ⟨hn', hbound⟩))
      rfl

private theorem nanos_ofSecs (n : Nat) : (Duration.ofSecs n).nanos = n * 1000000000 := rfl

private theorem readWithin_eq_ok_iff {name text : String} {refused : Duration → Prop}
    [DecidablePred refused] {d : Duration} :
    (match readSeconds name text with
      | .error fault' => .error fault'
      | .ok d => if refused d then .error fault else .ok d) = Except.ok d
    ↔ ∃ n, IsSeconds text n ∧ n < 2 ^ 64 ∧ ¬ refused (.ofSecs n) ∧ d = .ofSecs n := by
  have hread : ∀ d, readSeconds name text = .ok d ↔
      ∃ n, IsSeconds text n ∧ n < 2 ^ 64 ∧ d = .ofSecs n :=
    fun _ => readSeconds_eq_ok_iff
  cases hseconds : readSeconds name text with
  | error fault' =>
    simp only [reduceCtorEq, false_iff]
    rintro ⟨n, hn, hbound, -, -⟩
    cases hseconds.symm.trans ((hread _).mpr ⟨n, hn, hbound, rfl⟩)
  | ok d' =>
    obtain ⟨n, hn, hbound, rfl⟩ := (hread d').mp hseconds
    simp only
    constructor
    · intro h
      split at h
      · cases h
      · rename_i haccepted
        exact ⟨n, hn, hbound, haccepted, (Except.ok.inj h).symm⟩
    · rintro ⟨n', hn', hbound', haccepted, rfl⟩
      have hsame := Except.ok.inj (hseconds.symm.trans ((hread _).mpr ⟨n', hn', hbound', rfl⟩))
      rw [hsame, if_neg haccepted]

theorem readTtl_iff (value : Option String) :
    readTtl value = .ok c.beaconTtl ↔ Means c .ttl value := by
  cases value with
  | none => simp [Means, readTtl, eq_comm]
  | some text =>
    refine readWithin_eq_ok_iff.trans (exists_congr fun n => and_congr_right fun _ => ?_)
    rw [← and_assoc, ← and_assoc]
    refine and_congr_left fun _ => ?_
    rw [Beacon.longestTtl, nanos_ofSecs, nanos_ofSecs]
    omega

theorem readInterval_iff (value : Option String) :
    readInterval value = .ok c.announceInterval ↔ Means c .interval value := by
  cases value with
  | none => simp [Means, readInterval, eq_comm]
  | some text =>
    refine readWithin_eq_ok_iff.trans (exists_congr fun n => and_congr_right fun _ => ?_)
    rw [← and_assoc, ← and_assoc]
    refine and_congr_left fun _ => ?_
    rw [nanos_ofSecs]
    omega

theorem readSecret_iff (value : Option String) :
    readSecret value = .ok c.secret ↔ Means c .secret value := by
  cases value with
  | none => simp [Means, readSecret, eq_comm]
  | some text =>
    have hdecode : ∀ bytes, Bytes.Hex.decode (String.ofList (Text.trimmed text.toList)) = .ok bytes
        ↔ Bytes.Hex.Spells (Text.trimmed text.toList) bytes := by
      intro bytes
      rw [Bytes.Hex.decode_eq_ok_iff, String.toList_ofList]
    simp only [Means, readSecret, ← Text.trimmed_eq_iff, exists_and_left, exists_eq_left',
      ← hdecode]
    cases Bytes.Hex.decode (String.ofList (Text.trimmed text.toList)) with
    | error fault => simp
    | ok bytes =>
      simp only [Except.ok.injEq, Block.ofBytes?]
      by_cases hlength : bytes.length = 32
      · simp only [dif_pos hlength, Except.ok.injEq]
        constructor
        · intro h
          exact ⟨⟨bytes, hlength⟩, rfl, h.symm⟩
        · rintro ⟨block, rfl, h⟩
          exact h.symm
      · simp only [dif_neg hlength, reduceCtorEq, false_iff]
        rintro ⟨block, rfl, -⟩
        exact hlength block.length_bytes

theorem readEntries_iff {IsText : List Char → α → Prop}
    (hread : ∀ entry a, read (String.ofList entry) = .ok a ↔ IsText entry a)
    (value : Option String) (items : List α) :
    readAll read (entriesOf value) = .ok items ↔ ListsAll IsText value items := by
  rw [readAll_eq_ok_iff, entriesOf, List.forall₂_map_left_iff]
  simp only [hread, ListsAll, ← Text.entries_eq_iff, exists_eq_left']

/-- The readers find in a value what it means. -/
theorem read_iff_means (v : Variable) (value : Option String) :
    v.read value = .ok (v.field c) ↔ Means c v value := by
  cases v with
  | httpAddress => exact readHttpAddress_iff value
  | peers => exact readEntries_iff (fun _ _ => readPeer_eq_ok_iff) value _
  | ttl => exact readTtl_iff value
  | interval => exact readInterval_iff value
  | notify => exact readEntries_iff (fun _ _ => readKey_eq_ok_iff) value _
  | addressBook => exact readEntries_iff (fun _ _ => readKey_eq_ok_iff) value _
  | secret => exact readSecret_iff value

end Readers

section Judging

variable {lookup other : String → Option String} {c : Config} {fault : Fault} {v : Variable}
  {value : Option String}

def fault? {α : Type} : Except Fault α → Option Fault
  | .error fault => some fault
  | .ok _ => none

def Variable.fault? (v : Variable) (value : Option String) : Option Fault :=
  Config.fault? (v.read value)

theorem fault?_eq_some_iff {α : Type} {x : Except Fault α} :
    fault? x = some fault ↔ x = .error fault := by
  cases x <;> simp [fault?]

theorem fault?_eq_none_iff {α : Type} {x : Except Fault α} :
    fault? x = none ↔ ∃ a, x = .ok a := by
  cases x <;> simp [fault?]

private theorem bind_eq_ok_iff {α β : Type} {x : Except Fault α} {f : α → Except Fault β} {b : β} :
    (x >>= f) = .ok b ↔ ∃ a, x = .ok a ∧ f a = .ok b := by
  cases x <;> simp [bind, Except.bind]

private theorem fault?_bind {α β : Type} {x : Except Fault α} {f : α → Except Fault β}
    {later : Option Fault} (h : ∀ a, fault? (f a) = later) :
    fault? (x >>= f) = (fault? x).or later := by
  cases x with
  | error fault => rfl
  | ok a => exact h a

private theorem findSome?_cons_eq_or {α β : Type} (f : α → Option β) (a : α) (as : List α) :
    (a :: as).findSome? f = (f a).or (as.findSome? f) := by
  rw [List.findSome?_cons]
  cases f a <;> rfl

private theorem findSome?_congr {α β : Type} {f g : α → Option β} {as : List α}
    (h : ∀ a ∈ as, f a = g a) : as.findSome? f = as.findSome? g := by
  induction as with
  | nil => rfl
  | cons a as ih =>
    obtain ⟨ha, has⟩ := List.forall_mem_cons.mp h
    rw [findSome?_cons_eq_or, findSome?_cons_eq_or, ha, ih has]

/-- The fault of the first variable that has one is reported. -/
theorem fault?_ofVariables :
    fault? (ofVariables lookup) = Variable.all.findSome? fun v => v.fault? (lookup v.name) := by
  -- What is said of the later variables does not depend on what was read of the earlier ones.
  simp only [Variable.all, findSome?_cons_eq_or, List.findSome?_nil]
  iterate 7 refine fault?_bind fun _ => ?_
  rfl

theorem ofVariables_eq_ok_iff :
    ofVariables lookup = .ok c ↔ ∀ v : Variable, v.read (lookup v.name) = .ok (v.field c) := by
  simp only [ofVariables, bind_eq_ok_iff]
  constructor
  · rintro ⟨httpAddress, h1, peers, h2, ttl, h3, interval, h4, notify, h5, book, h6, secret, h7, h⟩
      v
    cases h
    cases v <;> assumption
  · intro h
    exact ⟨_, h .httpAddress, _, h .peers, _, h .ttl, _, h .interval, _, h .notify, _,
      h .addressBook, _, h .secret, rfl⟩

theorem Variable.fault?_none (v : Variable) : v.fault? none = none := by
  cases v <;> rfl

theorem fault?_setting : fault? (ofVariables (setting v value)) = v.fault? value := by
  -- The other variables are absent, and an absent variable has no fault.
  have halone : ∀ w : Variable, w.fault? (setting v value w.name)
      = if w = v then v.fault? value else none := by
    intro w
    by_cases hw : w = v
    · rw [hw, setting, if_pos rfl, if_pos rfl]
    · have hname : w.name ≠ v.name := fun h => hw (Variable.name_injective h)
      rw [setting, if_neg hname, if_neg hw, w.fault?_none]
  rw [fault?_ofVariables]
  simp only [halone]
  cases v.fault? value with
  | none => simp
  | some fault => cases v <;> rfl

theorem ofVariables_setting_eq_error_iff :
    ofVariables (setting v value) = .error fault ↔ v.fault? value = some fault := by
  rw [← fault?_setting, fault?_eq_some_iff]

theorem exists_ofVariables_setting_iff :
    (∃ c, ofVariables (setting v value) = .ok c) ↔ v.fault? value = none := by
  rw [← fault?_setting, fault?_eq_none_iff]

theorem ofVariables_congr
    (h : ∀ v : Variable, lookup v.name = other v.name ∨
      v.isList = true ∧ entriesOf (lookup v.name) = entriesOf (other v.name)) :
    ofVariables lookup = ofVariables other := by
  have hsame : ∀ v : Variable, v.isList = false → lookup v.name = other v.name := by
    intro v hv
    obtain heq | ⟨hlist, -⟩ := h v
    · exact heq
    · rw [hv] at hlist
      cases hlist
  have hentries : ∀ v : Variable, entriesOf (lookup v.name) = entriesOf (other v.name) := by
    intro v
    obtain heq | ⟨-, heq⟩ := h v
    · rw [heq]
    · exact heq
  have h1 := hsame .httpAddress rfl
  have h2 := hentries .peers
  have h3 := hsame .ttl rfl
  have h4 := hsame .interval rfl
  have h5 := hentries .notify
  have h6 := hentries .addressBook
  have h7 := hsame .secret rfl
  simp only [Variable.name] at h1 h2 h3 h4 h5 h6 h7
  simp only [ofVariables, h1, h2, h3, h4, h5, h6, h7]

section Entries

variable {text text' : String} {es : List (List Char)}

private theorem entriesOf_of_lists (h : Lists text.toList es) :
    entriesOf (some text) = es.map String.ofList := by
  rw [entriesOf, Option.getD_some, Text.entries_eq_iff.mpr h]

private theorem fault?_readAll {α : Type} (read : String → Except Fault α) (entries : List String) :
    fault? (readAll read entries) = entries.findSome? fun entry => fault? (read entry) := by
  induction entries with
  | nil => rfl
  | cons entry entries ih =>
    rw [readAll, findSome?_cons_eq_or, ← ih]
    cases read entry with
    | error fault => rfl
    | ok a => cases readAll read entries <;> rfl

private theorem fault?_entries {α : Type} (read : String → Except Fault α)
    (h : Lists text.toList es) :
    fault? (readAll read (entriesOf (some text)))
      = es.findSome? fun e => fault? (readAll read (entriesOf (some (String.ofList e)))) := by
  -- An entry given alone is a list of its own with just this entry.
  have halone : ∀ e ∈ es, fault? (readAll read (entriesOf (some (String.ofList e))))
      = fault? (read (String.ofList e)) := by
    intro e he
    have hlists : Lists (String.ofList e).toList [e] := by
      rw [String.toList_ofList]
      exact (h.isEntry e he).lists
    rw [entriesOf_of_lists hlists, fault?_readAll, List.map_singleton, List.findSome?_singleton]
  rw [entriesOf_of_lists h, fault?_readAll, List.findSome?_map]
  exact findSome?_congr fun e he => (halone e he).symm

theorem Variable.fault?_list (hv : v.isList = true) (h : Lists text.toList es) :
    v.fault? (some text) = es.findSome? fun e => v.fault? (some (String.ofList e)) := by
  cases v with
  | peers => exact fault?_entries readPeer h
  | notify => exact fault?_entries (readKey "LANTERN_NOTIFY") h
  | addressBook => exact fault?_entries (readKey "LANTERN_ADDRESS_BOOK") h
  | _ => cases hv

theorem ofVariables_update_eq (hv : v.isList = true) (h : Lists text.toList es)
    (h' : Lists text'.toList es) :
    ofVariables (Function.update lookup v.name (some text))
      = ofVariables (Function.update lookup v.name (some text')) := by
  refine ofVariables_congr fun w => ?_
  by_cases hw : w = v
  · subst hw
    rw [Function.update_self, Function.update_self, entriesOf_of_lists h, entriesOf_of_lists h']
    exact .inr ⟨hv, rfl⟩
  · have hname : w.name ≠ v.name := fun heq => hw (Variable.name_injective heq)
    rw [Function.update_of_ne hname, Function.update_of_ne hname]
    exact .inl rfl

end Entries

section Messages

def Fault.name : Fault → String
  | .httpAddress _ => "LANTERN_HTTP_ADDR"
  | .peer _ => "LANTERN_PEERS"
  | .notNumber name _ _ => name
  | .ttlRange => "LANTERN_BEACON_TTL_SECS"
  | .noInterval => "LANTERN_ANNOUNCE_SECS"
  | .keyHex name _ _ => name
  | .key name _ _ => name
  | .secretHex _ => "LANTERN_SECRET_KEY"
  | .secretLength => "LANTERN_SECRET_KEY"

private theorem begins_append {name text : String} (h : ∃ rest, text = name ++ rest)
    (more : String) : ∃ rest, text ++ more = name ++ rest := by
  obtain ⟨rest, rfl⟩ := h
  exact ⟨rest ++ more, String.append_assoc⟩

theorem Fault.message_begins (fault : Fault) : ∃ rest, fault.message = fault.name ++ rest := by
  cases fault with
  | httpAddress value =>
    have hname : "LANTERN_HTTP_ADDR " = "LANTERN_HTTP_ADDR" ++ " " := by decide
    exact begins_append (begins_append (begins_append ⟨" ", hname⟩ _) _) _
  | peer entry =>
    have hname : "LANTERN_PEERS entry " = "LANTERN_PEERS" ++ " entry " := by decide
    exact begins_append (begins_append (begins_append ⟨" entry ", hname⟩ _) _) _
  | notNumber name value fault =>
    exact begins_append (begins_append (begins_append ⟨" ", rfl⟩ _) _) _
  | ttlRange => exact ⟨" must be between 1 and 86400", by decide⟩
  | noInterval => exact ⟨" must be positive", by decide⟩
  | keyHex name entry fault =>
    exact begins_append (begins_append (begins_append ⟨" entry ", rfl⟩ _) _) _
  | key name entry fault =>
    exact begins_append (begins_append (begins_append ⟨" entry ", rfl⟩ _) _) _
  | secretHex fault =>
    have hname : "LANTERN_SECRET_KEY: " = "LANTERN_SECRET_KEY" ++ ": " := by decide
    exact begins_append ⟨": ", hname⟩ _
  | secretLength => exact ⟨" must be 32 bytes", by decide⟩

private theorem name_of_readAll {α : Type} {read : String → Except Fault α} {name : String}
    (hread : ∀ entry fault, read entry = .error fault → fault.name = name) {entries : List String}
    (h : readAll read entries = .error fault) : fault.name = name := by
  rw [← fault?_eq_some_iff, fault?_readAll] at h
  obtain ⟨entry, -, hentry⟩ := List.exists_of_findSome?_eq_some h
  exact hread entry fault (fault?_eq_some_iff.mp hentry)

private theorem name_of_readPeer (entry : String) (fault : Fault)
    (h : readPeer entry = .error fault) : fault.name = "LANTERN_PEERS" := by
  rw [readPeer] at h
  split at h <;> cases h
  rfl

private theorem name_of_readKey (name entry : String) (fault : Fault)
    (h : readKey name entry = .error fault) : fault.name = name := by
  rw [readKey] at h
  split at h
  · cases h
    rfl
  · split at h <;> cases h
    rfl

private theorem name_of_readSeconds {name text : String}
    (h : readSeconds name text = .error fault) : fault.name = name := by
  rw [readSeconds] at h
  split at h <;> cases h
  rfl

private theorem name_of_readWithin {name text : String} {refused : Duration → Prop}
    [DecidablePred refused] {refusal : Fault} (hrefusal : refusal.name = name)
    (h : (match readSeconds name text with
      | .error fault' => .error fault'
      | .ok d => if refused d then .error refusal else .ok d) = Except.error fault) :
    fault.name = name := by
  split at h
  · rename_i hseconds
    cases h
    exact name_of_readSeconds hseconds
  · split at h <;> cases h
    exact hrefusal

private theorem name_of_readHttpAddress (h : readHttpAddress value = .error fault) :
    fault.name = "LANTERN_HTTP_ADDR" := by
  cases value with
  | none => cases h
  | some text =>
    simp only [readHttpAddress] at h
    split at h <;> cases h
    rfl

private theorem name_of_readTtl (h : readTtl value = .error fault) :
    fault.name = "LANTERN_BEACON_TTL_SECS" := by
  cases value with
  | none => cases h
  | some text => exact name_of_readWithin rfl h

private theorem name_of_readInterval (h : readInterval value = .error fault) :
    fault.name = "LANTERN_ANNOUNCE_SECS" := by
  cases value with
  | none => cases h
  | some text => exact name_of_readWithin rfl h

private theorem name_of_readSecret (h : readSecret value = .error fault) :
    fault.name = "LANTERN_SECRET_KEY" := by
  cases value with
  | none => cases h
  | some text =>
    simp only [readSecret] at h
    split at h
    · cases h
      rfl
    · split at h <;> cases h
      rfl

theorem Variable.name_of_fault? (h : v.fault? value = some fault) : fault.name = v.name := by
  have hread : v.read value = .error fault := fault?_eq_some_iff.mp h
  cases v with
  | httpAddress => exact name_of_readHttpAddress hread
  | peers => exact name_of_readAll name_of_readPeer hread
  | ttl => exact name_of_readTtl hread
  | interval => exact name_of_readInterval hread
  | notify => exact name_of_readAll (name_of_readKey _) hread
  | addressBook => exact name_of_readAll (name_of_readKey _) hread
  | secret => exact name_of_readSecret hread

end Messages

end Judging

section Soundness

variable {c : Config} {lookup : String → Option String}

theorem ttl_bounds (h : ofVariables lookup = .ok c) :
    (Duration.ofSecs 1).nanos ≤ c.beaconTtl.nanos ∧
      c.beaconTtl.nanos ≤ Beacon.longestTtl.nanos := by
  have httl := (read_iff_means .ttl _).mp (ofVariables_eq_ok_iff.mp h .ttl)
  rw [Beacon.longestTtl, nanos_ofSecs, nanos_ofSecs]
  cases hvalue : lookup (Variable.name .ttl) with
  | none =>
    rw [hvalue] at httl
    rw [httl, nanos_ofSecs]
    omega
  | some text =>
    rw [hvalue] at httl
    obtain ⟨n, -, hlow, hhigh, hn⟩ := httl
    rw [hn, nanos_ofSecs]
    omega

theorem interval_pos (h : ofVariables lookup = .ok c) : 0 < c.announceInterval.nanos := by
  have hinterval := (read_iff_means .interval _).mp (ofVariables_eq_ok_iff.mp h .interval)
  cases hvalue : lookup (Variable.name .interval) with
  | none =>
    rw [hvalue] at hinterval
    rw [hinterval, nanos_ofSecs]
    omega
  | some text =>
    rw [hvalue] at hinterval
    obtain ⟨n, -, hlow, -, hn⟩ := hinterval
    rw [hn, nanos_ofSecs]
    omega

private theorem accepted_of_listsAll {value : Option String} {keys : List PublicKey}
    (h : ListsAll IsKey value keys) : ∀ key ∈ keys, PublicKey.ofBytes key.bytes = .ok key := by
  obtain ⟨entries, -, hkeys⟩ := h
  induction hkeys with
  | nil => simp
  | cons hkey _ ih => exact List.forall_mem_cons.mpr ⟨hkey.2, ih⟩

theorem keys_accepted (h : ofVariables lookup = .ok c) :
    ∀ key ∈ c.notify ++ c.addressBook, PublicKey.ofBytes key.bytes = .ok key := by
  have hread := ofVariables_eq_ok_iff.mp h
  have hnotify := accepted_of_listsAll ((read_iff_means .notify _).mp (hread .notify))
  have hbook := accepted_of_listsAll ((read_iff_means .addressBook _).mp (hread .addressBook))
  exact List.forall_mem_append.mpr ⟨hnotify, hbook⟩

theorem generate_ne_invalidTtl (h : ofVariables lookup = .ok c) (recipients : List PublicKey)
    (pair : KeyPair) (now : Instant) (e : Entropy) (ttl : Duration) :
    (Beacon.generate recipients pair c.beaconTtl now e).1 ≠ .error (.invalidTtl ttl) := by
  intro hrefused
  obtain ⟨hlow, hhigh⟩ := ttl_bounds h
  have hzero : (Duration.ofSecs 1).nanos = 1000000000 := rfl
  obtain hnone | hlong :=
    (Beacon.generate_invalidTtl_iff recipients pair c.beaconTtl now e).mp ⟨ttl, hrefused⟩
  · omega
  · omega

end Soundness

/-- A configuration is read just if each variable alone is absent or good: every field has the
meaning of its variable, and so depends on that variable only. Otherwise the fault of the first bad
variable is reported, which names the variable, and in a list that of its first bad entry. White
space around the entries of a list and empty entries make no difference. A configuration that was
read has a life for beacon sets that is never refused, a time between announcements, and accepted
keys. -/
theorem ofVariables_decided (lookup : String → Option String) :
    (∀ c, ofVariables lookup = .ok c ↔ ∀ v : Variable, Means c v (lookup v.name)) ∧
    ((∃ c, ofVariables lookup = .ok c) ↔
      ∀ v : Variable, lookup v.name = none ∨ ∃ c, ofVariables (only v lookup) = .ok c) ∧
    (∀ other c c', ofVariables lookup = .ok c → ofVariables other = .ok c' →
      ∀ v : Variable, lookup v.name = other v.name → v.field c = v.field c') ∧
    (∀ fault, ofVariables lookup = .error fault ↔ ∃ before v after,
      Variable.all = before ++ v :: after ∧
      (∀ w ∈ before, ∃ c, ofVariables (only w lookup) = .ok c) ∧
      ofVariables (only v lookup) = .error fault) ∧
    (∀ v fault, ofVariables (only v lookup) = .error fault →
      ∃ rest, fault.message = v.name ++ rest) ∧
    (∀ (v : Variable) text es fault, v.isList = true → Lists text.toList es →
      (ofVariables (setting v (some text)) = .error fault ↔ ∃ before e after,
        es = before ++ e :: after ∧
        (∀ b ∈ before, ∃ c, ofVariables (setting v (some (String.ofList b))) = .ok c) ∧
        ofVariables (setting v (some (String.ofList e))) = .error fault)) ∧
    (∀ (v : Variable) text text' es, v.isList = true → Lists text.toList es → Lists text'.toList es →
      ofVariables (Function.update lookup v.name (some text))
        = ofVariables (Function.update lookup v.name (some text'))) ∧
    (∀ c, ofVariables lookup = .ok c →
      (Duration.ofSecs 1).nanos ≤ c.beaconTtl.nanos ∧
      c.beaconTtl.nanos ≤ (Duration.ofSecs 86400).nanos ∧
      (∀ recipients pair now e ttl,
        (Beacon.generate recipients pair c.beaconTtl now e).1 ≠ .error (.invalidTtl ttl)) ∧
      0 < c.announceInterval.nanos ∧
      ∀ key ∈ c.notify ++ c.addressBook, PublicKey.ofBytes key.bytes = .ok key) := by
  refine ⟨fun c => ?_, ?_, ?_, fun fault => ?_, ?_, ?_, ?_, ?_⟩
  · rw [ofVariables_eq_ok_iff]
    exact forall_congr' fun v => read_iff_means v _
  · rw [← fault?_eq_none_iff, fault?_ofVariables, List.findSome?_eq_none_iff]
    simp only [only, exists_ofVariables_setting_iff, Variable.mem_all, forall_const]
    refine forall_congr' fun v => ⟨.inr, ?_⟩
    rintro (habsent | hgood)
    · rw [habsent, v.fault?_none]
    · exact hgood
  · intro other c c' hc hc' v hsame
    have hread := ofVariables_eq_ok_iff.mp hc v
    have hread' := ofVariables_eq_ok_iff.mp hc' v
    rw [hsame] at hread
    exact Except.ok.inj (hread.symm.trans hread')
  · rw [← fault?_eq_some_iff, fault?_ofVariables, List.findSome?_eq_some_iff]
    simp only [only, exists_ofVariables_setting_iff, ofVariables_setting_eq_error_iff]
    simp only [and_comm]
  · intro v fault h
    rw [only, ofVariables_setting_eq_error_iff] at h
    rw [← Variable.name_of_fault? h]
    exact fault.message_begins
  · intro v text es fault hv hlists
    simp only [ofVariables_setting_eq_error_iff, exists_ofVariables_setting_iff]
    rw [Variable.fault?_list hv hlists, List.findSome?_eq_some_iff]
    simp only [and_comm]
  · intro v text text' es hv h h'
    exact ofVariables_update_eq hv h h'
  · intro c hc
    obtain ⟨hlow, hhigh⟩ := ttl_bounds hc
    exact ⟨hlow, hhigh, generate_ne_invalidTtl hc, interval_pos hc, keys_accepted hc⟩

end BeaconMesh.Config
