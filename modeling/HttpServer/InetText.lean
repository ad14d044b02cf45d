import HttpServer.Json
import HttpServer.SerialisedRequest

/-!
# Internet addresses as text

`inet_ntop` and `inet_pton`, which are not part of the repository: `Inet.Documented` is what is
assumed of them. `Inet.numeric` meets it, with addresses written out as numbers in groups.
-/

/-- `in_addr`, by its octets. -/
abbrev InAddr := Vector UInt8 4

/-- `in6_addr`, by its groups of 16 bits. -/
abbrev In6Addr := Vector UInt16 8

/-- **The functions of `arpa/inet.h`**, on one address family each. `inet_pton` gives an address
where it returns 1. -/
structure Inet where
  ntop4 : InAddr → Bytes
  ntop6 : In6Addr → Bytes
  pton4 : Bytes → Option InAddr
  pton6 : Bytes → Option In6Addr

namespace Inet

/-- What is documented of them: `inet_pton` reads what `inet_ntop` writes, an IPv4 address has
digits and points only, and an IPv6 address hexadecimal digits, points and at least one colon. -/
structure Documented (inet : Inet) : Prop where
  pton4_ntop4 : ∀ a, inet.pton4 (inet.ntop4 a) = some a
  pton6_ntop6 : ∀ a, inet.pton6 (inet.ntop6 a) = some a
  pton4_text : ∀ s a, inet.pton4 s = some a → ∀ c ∈ s, isDigit c = true ∨ c = 0x2E
  pton6_text : ∀ s a, inet.pton6 s = some a →
    0x3A ∈ s ∧ ∀ c ∈ s, (hexDigit c).isSome = true ∨ c = 0x2E ∨ c = 0x3A

/-! ## Groups -/

section Groups

variable {α : Type*} {n : ℕ}

/-- Groups with a separator between them. -/
def grouped (write : α → Bytes) (sep : UInt8) (a : Vector α n) : Bytes :=
  [sep].intercalate (a.toList.map write)

/-- The groups of a text, if it is one that `grouped` writes. -/
def readGrouped (write : α → Bytes) (read : Bytes → α) (sep : UInt8) (n : ℕ) (s : Bytes) :
    Option (Vector α n) :=
  let groups := (s.splitOn sep).map read
  if h : groups.length = n then
    let a : Vector α n := ⟨groups.toArray, h⟩
    if grouped write sep a = s then some a else none
  else none

variable {write : α → Bytes} {read : Bytes → α} {sep : UInt8}

/-- **Groups are read back**, if each is and has no separator in it. -/
theorem readGrouped_grouped (hread : ∀ x, read (write x) = x) (hsep : ∀ x, sep ∉ write x)
    (hn : 0 < n) (a : Vector α n) :
    readGrouped write read sep n (grouped write sep a) = some a := by
  have hne : a.toList.map write ≠ [] := by
    intro hnil
    have hlen := congrArg List.length hnil
    rw [List.length_map, Vector.length_toList, List.length_nil] at hlen
    omega
  have hsplit : (grouped write sep a).splitOn sep = a.toList.map write := by
    refine List.splitOn_intercalate sep (fun l hl => ?_) hne
    obtain ⟨x, -, rfl⟩ := List.mem_map.mp hl
    exact hsep x
  have hgroups : ((grouped write sep a).splitOn sep).map read = a.toList := by
    rw [hsplit, List.map_map]
    exact List.map_id'' hread _
  have ha (h : a.toList.toArray.size = n) : (⟨a.toList.toArray, h⟩ : Vector α n) = a :=
    Vector.toArray_inj.mp Array.toArray_toList
  unfold readGrouped
  simp only [hgroups]
  rw [dif_pos a.length_toList, ha, if_pos rfl]

/-- What is read was written so. -/
theorem grouped_of_readGrouped {s : Bytes} {a : Vector α n}
    (h : readGrouped write read sep n s = some a) : grouped write sep a = s := by
  unfold readGrouped at h
  dsimp only at h
  split at h
  · split at h
    · rename_i hs
      cases h
      exact hs
    · cases h
  · cases h

/-- Such a text has the separator in it and what the groups have. -/
theorem mem_grouped {c : UInt8} {a : Vector α n} (hc : c ∈ grouped write sep a) :
    c = sep ∨ ∃ x, c ∈ write x := by
  unfold grouped at hc
  generalize a.toList = groups at hc
  induction groups with
  | nil => cases hc
  | cons x groups ih =>
    rw [List.map_cons] at hc
    by_cases hnil : groups.map write = []
    · rw [hnil, List.intercalate_singleton] at hc
      exact Or.inr ⟨x, hc⟩
    · rw [List.intercalate_cons_of_ne_nil hnil] at hc
      simp only [List.mem_append, List.mem_singleton] at hc
      rcases hc with (hx | hsep) | hrest
      · exact Or.inr ⟨x, hx⟩
      · exact Or.inl hsep
      · exact ih hrest

/-- Without the separator there is one group. -/
theorem sep_mem_of_readGrouped (hn : 2 ≤ n) {s : Bytes} {a : Vector α n}
    (h : readGrouped write read sep n s = some a) : sep ∈ s := by
  by_contra hsep
  unfold readGrouped at h
  rw [List.splitOn_eq_singleton hsep] at h
  dsimp only at h
  rw [dif_neg (by rw [List.map_singleton, List.length_singleton]; omega)] at h
  cases h

end Groups

/-! ## Addresses in numbers -/

/-- A number in hexadecimal, in lower case. -/
def toHex (n : ℕ) : Bytes :=
  if n = 0 then [0x30] else (Nat.digits 16 n).reverse.map fun d => Json.hexChar (.ofNat d)

/-- The value of a string of hexadecimal digits. -/
def hexValue (s : Bytes) : ℕ :=
  Nat.ofDigits 16 (s.reverse.map fun c => ((hexDigit c).getD 0).toNat)

/-- A digit that is written is read. -/
theorem hexDigit_hexChar : ∀ d < 16, hexDigit (Json.hexChar (.ofNat d)) = some (.ofNat d) := by
  decide

theorem isSome_hexDigit_of_mem_toHex {n : ℕ} {c : UInt8} (hc : c ∈ toHex n) :
    (hexDigit c).isSome = true := by
  unfold toHex at hc
  split at hc
  · rw [List.mem_singleton.mp hc]
    rfl
  · obtain ⟨d, hd, rfl⟩ := List.mem_map.mp hc
    rw [hexDigit_hexChar d (Nat.digits_lt_base (by decide) (List.mem_reverse.mp hd))]
    rfl

/-- **A number is the value of its digits.** -/
theorem hexValue_toHex (n : ℕ) : hexValue (toHex n) = n := by
  unfold toHex hexValue
  split
  · rename_i hn
    rw [hn]
    rfl
  · simp only [List.map_reverse, List.reverse_reverse, List.map_map]
    have hdigits : (Nat.digits 16 n).map ((fun c => ((hexDigit c).getD 0).toNat)
        ∘ fun d => Json.hexChar (.ofNat d)) = Nat.digits 16 n := by
      refine (List.map_congr_left fun d hd => ?_).trans (List.map_id _)
      have hlt : d < 16 := Nat.digits_lt_base (by decide) hd
      rw [Function.comp_apply, hexDigit_hexChar d hlt, Option.getD_some, UInt8.toNat_ofNat']
      exact Nat.mod_eq_of_lt (by omega)
    rw [hdigits, Nat.ofDigits_digits]

/-- The functions on addresses in numbers: IPv4 addresses as they are, and IPv6 addresses without
an abbreviation for zeros. -/
def numeric : Inet where
  ntop4 := grouped (fun octet => toDecimal octet.toNat) 0x2E
  ntop6 := grouped (fun group => toHex group.toNat) 0x3A
  pton4 := readGrouped (fun octet => toDecimal octet.toNat) (fun s => .ofNat (decimal s)) 0x2E 4
  pton6 := readGrouped (fun group => toHex group.toNat) (fun s => .ofNat (hexValue s)) 0x3A 8

/-- **These are as documented.** -/
theorem numeric_documented : numeric.Documented where
  pton4_ntop4 := by
    refine readGrouped_grouped (fun octet => ?_) (fun octet h => ?_) (by decide)
    · rw [decimal_toDecimal, UInt8.ofNat_toNat]
    · exact absurd (isDigit_of_mem_toDecimal h) (by decide)
  pton6_ntop6 := by
    refine readGrouped_grouped (fun group => ?_) (fun group h => ?_) (by decide)
    · rw [hexValue_toHex, UInt16.ofNat_toNat]
    · exact absurd (isSome_hexDigit_of_mem_toHex h) (by decide)
  pton4_text := by
    intro s a h c hc
    rw [← grouped_of_readGrouped h] at hc
    rcases mem_grouped hc with hsep | ⟨octet, hdigit⟩
    · exact Or.inr hsep
    · exact Or.inl (isDigit_of_mem_toDecimal hdigit)
  pton6_text := by
    intro s a h
    refine ⟨sep_mem_of_readGrouped (by decide) h, fun c hc => ?_⟩
    rw [← grouped_of_readGrouped h] at hc
    rcases mem_grouped hc with hsep | ⟨group, hdigit⟩
    · exact Or.inr (Or.inr hsep)
    · exact Or.inl (isSome_hexDigit_of_mem_toHex hdigit)

end Inet

