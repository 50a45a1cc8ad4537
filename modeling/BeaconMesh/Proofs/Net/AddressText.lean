import BeaconMesh.Net.AddressParse
import BeaconMesh.Proofs.Text.Numeral

/-!
The text of a socket address: every address is read back from its own text, whichever run of zero
groups is shortened, with mapped version 4 addresses and with scopes.
-/

set_option autoImplicit false
set_option relaxedAutoImplicit false

namespace BeaconMesh.Net

variable {radix n : Nat} {cs rest tail : List Char}

section Numbers

def Halts (radix : Nat) (rest : List Char) : Prop :=
  ∀ c ∈ rest.head?, Text.digitValue? radix c = none

private theorem halts_cons {c : Char} (h : Text.digitValue? radix c = none) :
    Halts radix (c :: rest) := by
  rintro _ ⟨⟩
  exact h

private theorem halts_nil : Halts radix [] := by
  rintro _ ⟨⟩

private theorem digitsSpan_of_halts (h : Halts radix rest) :
    digitsSpan radix rest = ([], rest) := by
  cases rest with
  | nil => rfl
  | cons c rest => rw [digitsSpan, h c rfl]

private theorem digitsSpan_digitChars (hradix : radix ≤ 16) {ds : List Nat}
    (hds : ∀ d ∈ ds, d < radix) (hrest : Halts radix rest) :
    digitsSpan radix (ds.map Text.digitChar ++ rest) = (ds, rest) := by
  induction ds with
  | nil => exact digitsSpan_of_halts hrest
  | cons d ds ih =>
    obtain ⟨hd, hds⟩ := List.forall_mem_cons.mp hds
    have hvalue : Text.digitValue? radix (Text.digitChar d) = some d :=
      (Text.digitValue?_eq_some_iff hradix).mpr (Text.isDigit_digitChar hradix hd)
    rw [List.map_cons, List.cons_append, digitsSpan, hvalue]
    simp only [ih hds]

theorem digitsSpan_digits (hlow : 2 ≤ radix) (hradix : radix ≤ 16) (hrest : Halts radix rest) :
    digitsSpan radix (Text.digits radix n ++ rest) = (Text.places radix n, rest) := by
  rw [Text.digits_eq_map_places hlow]
  exact digitsSpan_digitChars hradix (fun d hd => Text.lt_of_mem_places hlow hd) hrest

private theorem ofDigits_places : ofDigits radix (Text.places radix n) = n := Text.foldl_places

private theorem isEmpty_places : (Text.places radix n).isEmpty = false :=
  List.isEmpty_eq_false_iff.mpr Text.places_ne_nil

theorem readOctet_digits (b : UInt8) (hrest : Halts 10 rest) :
    readOctet (Text.digits 10 b.toNat ++ rest) = some (b, rest) := by
  have hlength : (Text.places 10 b.toNat).length ≤ 3 :=
    Text.length_places_le (by decide) (by decide) (b.toNat_lt.trans (by decide))
  have hzero : (Text.places 10 b.toNat).head? = some 0 → (Text.places 10 b.toNat).length ≤ 1 := by
    intro h
    rw [Text.eq_zero_of_head?_places h]
    rfl
  have hb : b.toNat ≤ 255 := Nat.le_of_lt_succ b.toNat_lt
  rw [readOctet, digitsSpan_digits (by decide) (by decide) hrest]
  simp only [ofDigits_places, isEmpty_places]
  rw [if_neg, UInt8.ofNat_toNat]
  rintro (h | h | ⟨h, hmore⟩ | h)
  · cases h
  · omega
  · have := hzero h
    omega
  · omega

theorem readGroup_digits (g : UInt16) (hrest : Halts 16 rest) :
    readGroup (Text.digits 16 g.toNat ++ rest) = some (g, rest) := by
  have hlength : (Text.places 16 g.toNat).length ≤ 4 :=
    Text.length_places_le (by decide) (by decide) g.toNat_lt
  rw [readGroup, digitsSpan_digits (by decide) (by decide) hrest]
  simp only [ofDigits_places, isEmpty_places]
  rw [if_neg, UInt16.ofNat_toNat]
  rintro (h | h)
  · cases h
  · omega

theorem readBounded_digits {bound : Nat} (hn : n ≤ bound) (hrest : Halts 10 rest) :
    readBounded bound (Text.digits 10 n ++ rest) = some (n, rest) := by
  rw [readBounded, digitsSpan_digits (by decide) (by decide) hrest]
  simp only [ofDigits_places, isEmpty_places]
  rw [if_neg]
  rintro (h | h)
  · cases h
  · omega

end Numbers

section Version4

theorem toList_text_v4 (ip : Ipv4) :
    ip.text.toList = Text.digits 10 ip.a.toNat ++ '.' :: (Text.digits 10 ip.b.toNat
      ++ '.' :: (Text.digits 10 ip.c.toNat ++ '.' :: Text.digits 10 ip.d.toNat)) := by
  simp [Ipv4.text, Text.decimal]

private theorem halts_point : Halts 10 ('.' :: rest) := halts_cons (by decide)

theorem readIpv4_text (ip : Ipv4) (hrest : Halts 10 rest) :
    readIpv4 (ip.text.toList ++ rest) = some (ip, rest) := by
  simp [readIpv4, toList_text_v4, readOctet_digits, halts_point, hrest, readChar]

/-- Before such a text a number is complete, and no point follows it. -/
def Cuts (rest : List Char) : Prop :=
  ∀ c ∈ rest.head?, Text.digitValue? 16 c = none ∧ c ≠ '.'

private theorem cuts_cons {c : Char} (hdigit : Text.digitValue? 16 c = none) (hpoint : c ≠ '.') :
    Cuts (c :: rest) := by
  rintro _ ⟨⟩
  exact ⟨hdigit, hpoint⟩

private theorem cuts_colon : Cuts (':' :: rest) := cuts_cons (by decide) (by decide)

private theorem Cuts.halts (h : Cuts rest) : Halts 16 rest := fun c hc => (h c hc).1

private theorem digitValue?_ten {c : Char} (h : Text.digitValue? 16 c = none) :
    Text.digitValue? 10 c = none := by
  rw [Text.digitValue?, Option.filter_eq_none_iff] at h ⊢
  intro d hd
  have := h d hd
  simp only [decide_eq_true_eq] at this ⊢
  omega

private theorem Cuts.halts_ten (h : Cuts rest) : Halts 10 rest :=
  fun c hc => digitValue?_ten (h c hc).1

private theorem head?_digitsSpan (hcuts : Cuts rest) {word : List Char} (hword : '.' ∉ word) :
    (digitsSpan 10 (word ++ rest)).2.head? ≠ some '.' := by
  induction word with
  | nil =>
    rw [List.nil_append, digitsSpan_of_halts hcuts.halts_ten]
    exact fun h => (hcuts '.' h).2 rfl
  | cons c word ih =>
    obtain ⟨hc, hword⟩ := not_or.mp (mt List.mem_cons.mpr hword)
    rw [List.cons_append, digitsSpan]
    split
    · exact fun h => hc (Option.some.inj h).symm
    · exact ih hword

private theorem readIpv4_eq_none (h : (digitsSpan 10 cs).2.head? ≠ some '.') :
    readIpv4 cs = none := by
  have hpoint : readChar '.' (digitsSpan 10 cs).2 = none := by
    rw [readChar.eq_def]
    split
    · rename_i x rest heq
      exact if_neg fun hx => h (by rw [heq, hx, List.head?_cons])
    · rfl
  have hoctet : ∀ r ∈ readOctet cs, r.2 = (digitsSpan 10 cs).2 := by
    rintro r hr
    simp only [readOctet, Option.mem_def, Option.ite_none_left_eq_some, Option.some.injEq] at hr
    rw [← hr.2]
  cases hread : readOctet cs with
  | none => simp [readIpv4, hread]
  | some r => simp [readIpv4, hread, hoctet r hread, hpoint]

private theorem readIpv4_of_cuts (h : Cuts rest) : readIpv4 rest = none :=
  readIpv4_eq_none (by simpa using head?_digitsSpan h List.not_mem_nil)

end Version4

section Groups

variable {gs : List UInt16} {room : Nat} {g : UInt16}

def colonGroups (gs : List UInt16) : List Char :=
  gs.flatMap fun g => ':' :: Text.digits 16 g.toNat

theorem toList_groupsText_cons (g : UInt16) (gs : List UInt16) :
    (Ipv6.groupsText (g :: gs)).toList = Text.digits 16 g.toNat ++ colonGroups gs := by
  induction gs generalizing g with
  | nil => simp [Ipv6.groupsText, colonGroups, Text.hexadecimal]
  | cons next gs ih =>
    have hrest := ih next
    simp only [Ipv6.groupsText, String.toList_intercalate, List.map_cons,
      List.intercalate_cons_cons] at hrest ⊢
    rw [hrest]
    simp [colonGroups, Text.hexadecimal]

private theorem readGroup_of_cuts (h : Cuts rest) : readGroup rest = none := by
  rw [readGroup, digitsSpan_of_halts h.halts]
  rfl

def GroupRun.after (run : GroupRun) (gs : List UInt16) : GroupRun :=
  ⟨gs ++ run.groups, run.endsInIpv4, run.rest⟩

/-- The reader of groups looks for a version 4 address first; no group is taken for one. -/
private theorem readIpv4_digits (hrest : Cuts rest) :
    readIpv4 (Text.digits 16 g.toNat ++ rest) = none :=
  readIpv4_eq_none
    (head?_digitsSpan hrest (Text.not_mem_digits (by decide) (by decide) (by decide) _))

private theorem readGroups_first (hrest : Cuts rest) :
    readGroups true (room + 1) (Text.digits 16 g.toNat ++ rest)
      = (readGroups false room rest).after [g] := by
  rw [readGroups]
  simp [readIpv4_digits hrest, readGroup_digits g hrest.halts, GroupRun.after]

private theorem readGroups_next (hrest : Cuts rest) :
    readGroups false (room + 1) (':' :: (Text.digits 16 g.toNat ++ rest))
      = (readGroups false room rest).after [g] := by
  rw [readGroups]
  simp [readIpv4_digits hrest, readGroup_digits g hrest.halts, GroupRun.after, readChar]

private theorem cuts_colonGroups (hrest : Cuts rest) : Cuts (colonGroups gs ++ rest) := by
  cases gs with
  | nil => exact hrest
  | cons g gs => exact cuts_colon

theorem readGroups_colonGroups (hrest : Cuts rest) :
    readGroups false (gs.length + room) (colonGroups gs ++ rest)
      = (readGroups false room rest).after gs := by
  induction gs with
  | nil => simp [colonGroups, GroupRun.after]
  | cons g gs ih =>
    have hroom : (g :: gs).length + room = (gs.length + room) + 1 := by
      rw [List.length_cons]
      omega
    have htext : colonGroups (g :: gs) ++ rest
        = ':' :: (Text.digits 16 g.toNat ++ (colonGroups gs ++ rest)) := by
      simp [colonGroups]
    rw [hroom, htext, readGroups_next (cuts_colonGroups hrest), ih]
    rfl

theorem readGroups_groupsText (hgs : gs ≠ []) (hrest : Cuts rest) :
    readGroups true (gs.length + room) ((Ipv6.groupsText gs).toList ++ rest)
      = (readGroups false room rest).after gs := by
  obtain ⟨g, gs, rfl⟩ := List.exists_cons_of_ne_nil hgs
  have hroom : (g :: gs).length + room = (gs.length + room) + 1 := by
    rw [List.length_cons]
    omega
  rw [hroom, toList_groupsText_cons, List.append_assoc, readGroups_first (cuts_colonGroups hrest),
    readGroups_colonGroups hrest]
  rfl

def Ends (rest : List Char) : Prop :=
  Cuts rest ∧ ∀ inner ∈ readChar ':' rest, Cuts inner

private theorem readGroups_false_of_ends (h : Ends rest) :
    readGroups false room rest = ⟨[], false, rest⟩ := by
  cases room with
  | zero => rfl
  | succ room =>
    rw [readGroups]
    cases hcolon : readChar ':' rest with
    | none => simp
    | some inner =>
      have hinner := h.2 inner hcolon
      simp [readIpv4_of_cuts hinner, readGroup_of_cuts hinner]

private theorem readGroups_true_of_cuts (h : Cuts rest) :
    readGroups true room rest = ⟨[], false, rest⟩ := by
  cases room with
  | zero => rfl
  | succ room => simp [readGroups, readIpv4_of_cuts h, readGroup_of_cuts h]

theorem ends_colons : Ends (':' :: ':' :: rest) := by
  refine ⟨cuts_colon, ?_⟩
  rintro _ ⟨⟩
  exact cuts_colon

theorem ends_cons {c : Char} (hdigit : Text.digitValue? 16 c = none) (hpoint : c ≠ '.')
    (hcolon : c ≠ ':') : Ends (c :: rest) := by
  refine ⟨cuts_cons hdigit hpoint, ?_⟩
  intro inner hinner
  rw [readChar, if_neg hcolon] at hinner
  cases hinner

theorem readGroups_eq (hroom : gs.length ≤ room) (hrest : Ends rest) :
    readGroups true room ((Ipv6.groupsText gs).toList ++ rest) = ⟨gs, false, rest⟩ := by
  rcases eq_or_ne gs [] with rfl | hgs
  · exact readGroups_true_of_cuts hrest.1
  · obtain ⟨more, rfl⟩ := Nat.exists_eq_add_of_le hroom
    rw [readGroups_groupsText hgs hrest.1, readGroups_false_of_ends hrest, GroupRun.after,
      List.append_nil]

end Groups

section Version6

variable {gs before after : List UInt16}

theorem readIpv6_of_full {endsInIpv4 : Bool}
    (hread : readGroups true 8 cs = ⟨gs, endsInIpv4, rest⟩) (hfull : gs.length = 8) :
    readIpv6 cs = some (⟨gs, hfull⟩, rest) := by
  simp [readIpv6, hread, hfull]

theorem readIpv6_of_shortened {ip : Ipv6} {length : Nat} {endsInIpv4 : Bool}
    (hgroups : ip.groups = before ++ List.replicate (length + 1) 0 ++ after)
    (hbefore : readGroups true 8 cs = ⟨before, false, ':' :: ':' :: tail⟩)
    (hafter : readGroups true (length + after.length) tail = ⟨after, endsInIpv4, rest⟩) :
    readIpv6 cs = some (ip, rest) := by
  -- After the two colons the reader has room for all but one of the zero groups as well.
  have hlength : before.length + (length + 1) + after.length = 8 := by
    rw [← ip.length_groups, hgroups, List.length_append, List.length_append,
      List.length_replicate]
  have hless : before.length ≠ 8 := by omega
  have hroom : 7 - before.length = length + after.length := by omega
  have hzeros : 8 - before.length - after.length = length + 1 := by omega
  have hfull : (before ++ List.replicate (length + 1) 0 ++ after).length = 8 := by
    rw [← hgroups, ip.length_groups]
  have hip : ⟨_, hfull⟩ = ip := by
    cases ip
    cases hgroups
    rfl
  simp only [readIpv6, hbefore, dif_neg hless, readChar, if_pos, Option.bind_some, hroom, hafter,
    hzeros, dif_pos hfull, hip]
  rfl

theorem leadingZeros_spec (gs : List UInt16) :
    ∃ after, gs = List.replicate (Ipv6.leadingZeros gs) 0 ++ after := by
  induction gs with
  | nil => exact ⟨[], rfl⟩
  | cons g gs ih =>
    obtain ⟨after, hafter⟩ := ih
    rw [Ipv6.leadingZeros]
    split
    · rename_i hg
      exact ⟨after, by rw [List.replicate_succ, List.cons_append, ← hafter, hg]⟩
    · exact ⟨g :: gs, rfl⟩

theorem longestZeros_spec (start : Nat) (gs : List UInt16) :
    ∃ before after, (Ipv6.longestZeros start gs).1 = start + before.length ∧
      gs = before ++ List.replicate (Ipv6.longestZeros start gs).2 0 ++ after := by
  induction gs generalizing start with
  | nil => exact ⟨[], [], rfl, rfl⟩
  | cons g gs ih =>
    simp only [Ipv6.longestZeros]
    split
    · obtain ⟨after, hafter⟩ := leadingZeros_spec (g :: gs)
      exact ⟨[], after, rfl, hafter⟩
    · obtain ⟨before, after, hstart, hgs⟩ := ih (start + 1)
      refine ⟨g :: before, after, ?_, ?_⟩
      · rw [hstart, List.length_cons]
        omega
      · rw [List.cons_append, List.cons_append, ← hgs]

theorem text_eq_of_not_mapped {ip : Ipv6} (h : ip.mapped? = none) :
    ip.text = Ipv6.groupsText ip.groups ∨
      ∃ before length after, ip.groups = before ++ List.replicate (length + 1) 0 ++ after ∧
        ip.text = Ipv6.groupsText before ++ "::" ++ Ipv6.groupsText after := by
  obtain ⟨before, after, hstart, hgroups⟩ := longestZeros_spec 0 ip.groups
  simp only [Ipv6.text, h]
  generalize Ipv6.longestZeros 0 ip.groups = run at hstart hgroups ⊢
  obtain ⟨start, length⟩ := run
  simp only [Nat.zero_add] at hstart hgroups
  split
  · rename_i hlong
    obtain ⟨length, rfl⟩ := Nat.exists_eq_add_of_le' (Nat.one_le_of_lt hlong)
    have hbefore : ip.groups.take start = before := by
      rw [hgroups, hstart, List.append_assoc, List.take_left]
    have hafter : ip.groups.drop (start + (length + 1)) = after := by
      have hskipped : start + (length + 1)
          = (before ++ List.replicate (length + 1) (0 : UInt16)).length := by
        rw [hstart, List.length_append, List.length_replicate]
      rw [hskipped, hgroups, List.drop_left]
    exact .inr ⟨before, length, after, hgroups, by rw [hbefore, hafter]⟩
  · exact .inl rfl

private theorem joined_halves (g : UInt16) :
    (g >>> 8).toUInt8.toUInt16 <<< 8 ||| g.toUInt8.toUInt16 = g := by
  have hlow : g.toNat % 2 ^ 8 < 2 ^ 8 := Nat.mod_lt _ (by decide)
  have hhigh : g.toNat / 2 ^ 8 < 2 ^ 8 := Nat.div_lt_of_lt_mul g.toNat_lt
  have hwhole : (g.toNat / 2 ^ 8) <<< 8 % 2 ^ 16 = (g.toNat / 2 ^ 8) <<< 8 := by
    rw [Nat.shiftLeft_eq]
    omega
  apply UInt16.toNat_inj.mp
  calc ((g >>> 8).toUInt8.toUInt16 <<< 8 ||| g.toUInt8.toUInt16).toNat
    _ = (g.toNat / 2 ^ 8 % 2 ^ 8) <<< 8 % 2 ^ 16 ||| g.toNat % 2 ^ 8 := by
      simp [Nat.shiftRight_eq_div_pow]
    _ = (g.toNat / 2 ^ 8) <<< 8 + g.toNat % 2 ^ 8 := by
      rw [Nat.mod_eq_of_lt hhigh, hwhole, Nat.shiftLeft_add_eq_or_of_lt hlow]
    _ = g.toNat := by
      rw [Nat.shiftLeft_eq]
      omega

theorem groups_of_mapped {ip : Ipv6} {v4 : Ipv4} (h : ip.mapped? = some v4) :
    ip.groups = List.replicate 5 0 ++ [0xffff] ++ v4.groups := by
  obtain ⟨hfront, hv4⟩ := Option.ite_none_right_eq_some.mp h
  have hrest : (ip.groups.drop 6).length = 2 := by
    rw [List.length_drop, ip.length_groups]
  obtain ⟨high, low, hlast⟩ := List.length_eq_two.mp hrest
  have hgroups : ip.groups = [0, 0, 0, 0, 0, 0xffff, high, low] := by
    rw [← List.take_append_drop 6 ip.groups, hfront, hlast]
    rfl
  rw [← Option.some.inj hv4, hgroups]
  simp only [List.getD_cons_succ, List.getD_cons_zero, Ipv4.groups, joined_halves]
  rfl

private theorem readGroups_version4 {room : Nat} {v4 : Ipv4} (hrest : Halts 10 rest) :
    readGroups false (room + 2) (':' :: (v4.text.toList ++ rest)) = ⟨v4.groups, true, rest⟩ := by
  rw [readGroups]
  simp [readChar, readIpv4_text v4 hrest]

private theorem readIpv6_mapped {ip : Ipv6} {v4 : Ipv4} (h : ip.mapped? = some v4)
    (hrest : Halts 10 rest) : readIpv6 (ip.text.toList ++ rest) = some (ip, rest) := by
  -- The text is the shortened form of five zero groups with nothing before them.
  have hnone : (Ipv6.groupsText []).toList = [] := rfl
  have hffff : (Ipv6.groupsText [0xffff]).toList = ['f', 'f', 'f', 'f'] := by decide
  have htext : ip.text.toList ++ rest = (Ipv6.groupsText []).toList ++ ':' :: ':' ::
      ((Ipv6.groupsText [0xffff]).toList ++ ':' :: (v4.text.toList ++ rest)) := by
    simp [Ipv6.text, h, hnone, hffff]
  have hafter : readGroups true (4 + (0xffff :: v4.groups).length)
      ((Ipv6.groupsText [0xffff]).toList ++ ':' :: (v4.text.toList ++ rest))
        = ⟨0xffff :: v4.groups, true, rest⟩ := by
    have hroom : 4 + (0xffff :: v4.groups).length = [(0xffff : UInt16)].length + (4 + 2) := rfl
    rw [hroom, readGroups_groupsText (List.cons_ne_nil _ _) cuts_colon, readGroups_version4 hrest]
    rfl
  have hgroups : ip.groups = [] ++ List.replicate (4 + 1) 0 ++ (0xffff :: v4.groups) := by
    rw [groups_of_mapped h]
    rfl
  rw [htext]
  exact readIpv6_of_shortened hgroups (readGroups_eq (Nat.zero_le 8) ends_colons) hafter

theorem readIpv6_text (ip : Ipv6) (hends : Ends rest) (hrest : Halts 10 rest) :
    readIpv6 (ip.text.toList ++ rest) = some (ip, rest) := by
  cases hmapped : ip.mapped? with
  | some v4 => exact readIpv6_mapped hmapped hrest
  | none =>
    obtain htext | ⟨before, length, after, hgroups, htext⟩ := text_eq_of_not_mapped hmapped
    · rw [htext]
      exact readIpv6_of_full (readGroups_eq (Nat.le_of_eq ip.length_groups) hends) ip.length_groups
    · have hbefore : before.length ≤ 8 := by
        rw [← ip.length_groups, hgroups, List.append_assoc, List.length_append]
        exact Nat.le_add_right _ _
      have hchars : ip.text.toList ++ rest = (Ipv6.groupsText before).toList
          ++ ':' :: ':' :: ((Ipv6.groupsText after).toList ++ rest) := by
        simp [htext]
      rw [hchars]
      exact readIpv6_of_shortened hgroups (readGroups_eq hbefore ends_colons)
        (readGroups_eq (Nat.le_add_left _ _) hends)

end Version6

section Whole

variable {scope : UInt32} {port : UInt16}

def zoneChars (scope : UInt32) : List Char :=
  if scope = 0 then [] else '%' :: Text.digits 10 scope.toNat

private theorem readScope_zoneChars :
    readScope (zoneChars scope ++ ']' :: rest) = (scope, ']' :: rest) := by
  rw [zoneChars]
  split
  · rename_i hzero
    simp [readScope, readChar, hzero]
  · have hbound : scope.toNat ≤ 4294967295 := Nat.le_of_lt_succ scope.toNat_lt
    have hbracket : Halts 10 (']' :: rest) := halts_cons (by decide)
    simp [readScope, readChar, readBounded_digits hbound hbracket]

private theorem readPort_digits :
    readPort (':' :: Text.digits 10 port.toNat) = some (port, []) := by
  have hbound : port.toNat ≤ 65535 := Nat.le_of_lt_succ port.toNat_lt
  have hread := readBounded_digits hbound halts_nil
  rw [List.append_nil] at hread
  simp [readPort, readChar, hread]

theorem toList_text_socketV4 (ip : Ipv4) (port : UInt16) :
    (SocketAddress.v4 ip port).text.toList
      = ip.text.toList ++ ':' :: Text.digits 10 port.toNat := by
  simp [SocketAddress.text, Text.decimal]

theorem toList_text_socketV6 (ip : Ipv6) (port : UInt16) (scope : UInt32) :
    (SocketAddress.v6 ip port scope).text.toList
      = '[' :: (ip.text.toList ++ (zoneChars scope
        ++ ']' :: ':' :: Text.digits 10 port.toNat)) := by
  by_cases hscope : scope = 0 <;> simp [SocketAddress.text, Text.decimal, zoneChars, hscope]

private theorem ends_zoneChars : Ends (zoneChars scope ++ ']' :: rest) := by
  rw [zoneChars]
  split
  · exact ends_cons (by decide) (by decide) (by decide)
  · exact ends_cons (by decide) (by decide) (by decide)

/-- Every socket address is read from its own text. -/
theorem SocketAddress.ofChars?_text (address : SocketAddress) :
    ofChars? address.text.toList = some address := by
  cases address with
  | v4 ip port =>
    have hport : Halts 10 (':' :: Text.digits 10 port.toNat) := halts_cons (by decide)
    simp [ofChars?, readSocketV4, toList_text_socketV4, readIpv4_text ip hport, readPort_digits]
  | v6 ip port scope =>
    -- The reader tries version 4 first, which the bracket refuses.
    have hbracket : readIpv4 ('[' :: (ip.text.toList ++ (zoneChars scope
        ++ ']' :: ':' :: Text.digits 10 port.toNat))) = none :=
      readIpv4_of_cuts (cuts_cons (by decide) (by decide))
    have hends : Ends (zoneChars scope ++ ']' :: ':' :: Text.digits 10 port.toNat) :=
      ends_zoneChars
    have hread := readIpv6_text ip hends hends.1.halts_ten
    simp [ofChars?, readSocketV4, readSocketV6, toList_text_socketV6, hbracket, readChar, hread,
      readScope_zoneChars, readPort_digits]

theorem SocketAddress.text_injective : Function.Injective SocketAddress.text := by
  intro p q h
  have hread := ofChars?_text p
  rw [h, ofChars?_text q] at hread
  exact (Option.some.inj hread).symm

end Whole

end BeaconMesh.Net
