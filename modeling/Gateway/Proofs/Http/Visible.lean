import Gateway.Http.Message
import Gateway.Proofs.Net.Address

/-! Text that is visible ASCII and tabs can be sent in a header field, and all that a request tells
about its client is such text. -/

namespace Gateway

def Text.Visible (s : List Char) : Prop := ∀ c ∈ s, c.toNat = 9 ∨ 0x20 ≤ c.toNat ∧ c.toNat < 0x7F

instance (s : List Char) : Decidable (Text.Visible s) :=
  List.decidableBAll _ s

namespace Text.Visible

theorem mono {s t : List Char} (h : Visible t) (sub : s ⊆ t) : Visible s := fun c hc => h c (sub hc)

theorem append {s t : List Char} (hs : Visible s) (ht : Visible t) : Visible (s ++ t) := by
  intro c hc
  rcases List.mem_append.mp hc with hc | hc
  · exact hs c hc
  · exact ht c hc

theorem trimBlank {s : String} (h : Visible s.toList) : Visible (Text.trimBlank s).toList := by
  rw [Text.trimBlank, String.toList_ofList]
  exact h.mono (trim_subset _ _)

end Text.Visible

open Text (Visible)

theorem IpAddr.visible_text (a : IpAddr) : Visible a.text.toList :=
  a.forall_mem_text (by decide) (by decide) (by decide)

/-! ### Values of fields -/

theorem HeaderValue.toNat_of_isVisibleByte {b : UInt8} (h : isVisibleByte b = true) :
    (b.toNat = 9 ∨ 0x20 ≤ b.toNat ∧ b.toNat < 0x7F) ∧ (Char.ofNat b.toNat).toNat = b.toNat := by
  have hb : b.toNat = 9 ∨ 0x20 ≤ b.toNat ∧ b.toNat < 0x7F := by
    simp [isVisibleByte, UInt8.le_iff_toNat_le, UInt8.lt_iff_toNat_lt, ← UInt8.toNat_inj] at h
    omega
  have hascii : ∀ n < 0x80, (Char.ofNat n).toNat = n := by decide
  exact ⟨hb, hascii _ (by omega)⟩

theorem HeaderValue.visible_of_text? {v : HeaderValue} {s : String} (h : v.text? = some s) :
    Visible s.toList := by
  unfold text? at h
  split at h
  · next hbytes =>
    obtain rfl := Option.some.inj h
    intro c hc
    rw [String.toList_ofList] at hc
    obtain ⟨b, hb, rfl⟩ := List.mem_map.mp hc
    obtain ⟨hvisible, hchar⟩ := toNat_of_isVisibleByte (List.all_eq_true.mp hbytes b hb)
    rwa [hchar]
  · cases h

theorem HeaderValue.ofText?_of_visible {s : String} (h : Visible s.toList) :
    ofText? s = some (ofText s) := by
  refine if_pos (List.all_eq_true.mpr fun b hb => ?_)
  obtain ⟨c, hc, hb⟩ := List.mem_flatMap.mp hb
  have hvisible := h c hc
  have hascii : c.toNat < 0x80 := by omega
  rw [Utf8.encodeChar, if_pos hascii] at hb
  obtain rfl := List.mem_singleton.mp hb
  have hbyte : (UInt8.ofNat c.toNat).toNat = c.toNat :=
    UInt8.toNat_ofNat_of_lt' (Nat.lt_trans hascii (by decide))
  simp [isValidByte, UInt8.le_iff_toNat_le, ← UInt8.toNat_inj, hbyte]
  omega

theorem Utf8.encode_of_visible {s : String} (h : Visible s.toList) :
    Utf8.encode s = s.toList.map fun c => UInt8.ofNat c.toNat := by
  have hchar : s.toList.map Utf8.encodeChar = s.toList.map fun c => [UInt8.ofNat c.toNat] := by
    refine List.map_congr_left fun c hc => ?_
    have hvisible := h c hc
    exact if_pos (by omega)
  rw [Utf8.encode, List.flatMap_def, hchar, ← List.flatMap_def, ← List.map_eq_flatMap]

theorem HeaderValue.text?_ofText {s : String} (h : Visible s.toList) :
    (ofText s).text? = some s := by
  have hbyte : ∀ c ∈ s.toList, (UInt8.ofNat c.toNat).toNat = c.toNat := by
    intro c hc
    have hvisible := h c hc
    exact UInt8.toNat_ofNat_of_lt' (by simp [UInt8.size]; omega)
  have hall : (ofText s).bytes.all isVisibleByte = true := by
    rw [ofText, Utf8.encode_of_visible h, List.all_map]
    refine List.all_eq_true.mpr fun c hc => ?_
    have hvisible := h c hc
    simp [isVisibleByte, UInt8.le_iff_toNat_le, UInt8.lt_iff_toNat_lt, ← UInt8.toNat_inj,
      hbyte c hc]
    omega
  unfold text?
  rw [if_pos hall, ofText, Utf8.encode_of_visible h, List.map_map]
  have hback : s.toList.map ((fun b : UInt8 => Char.ofNat b.toNat) ∘ fun c => UInt8.ofNat c.toNat) =
      s.toList := by
    refine (List.map_congr_left fun c hc => ?_).trans (List.map_id _)
    rw [Function.comp_apply, hbyte c hc, Char.ofNat_toNat]
    rfl
  rw [hback, String.ofList_toList]

theorem HeaderValue.ofText_of_text? {v : HeaderValue} {s : String} (h : v.text? = some s) :
    ofText s = v := by
  have hvisible := visible_of_text? h
  unfold text? at h
  split at h
  · next hbytes =>
    obtain rfl := Option.some.inj h
    have hback : ∀ b ∈ v.bytes, UInt8.ofNat (Char.ofNat b.toNat).toNat = b := by
      intro b hb
      have hchar := (toNat_of_isVisibleByte (List.all_eq_true.mp hbytes b hb)).2
      rw [hchar, UInt8.ofNat_toNat]
    rw [ofText, Utf8.encode_of_visible hvisible, String.toList_ofList, List.map_map]
    exact congrArg mk ((List.map_congr_left hback).trans (List.map_id _))
  · cases h

theorem Headers.visible_of_trimmed? {h : Headers} {name : HeaderName} {s : String}
    (found : h.trimmed? name = some s) : Visible s.toList ∧ s ≠ "" := by
  obtain ⟨hsome, hs⟩ := Option.filter_eq_some_iff.mp found
  obtain ⟨v, hv, rfl⟩ := Option.map_eq_some_iff.mp hsome
  obtain ⟨value, -, hvalue⟩ := Option.bind_eq_some_iff.mp hv
  exact ⟨(HeaderValue.visible_of_text? hvalue).trimBlank, by simpa using hs⟩

/-! ### What a request tells -/

theorem Request.visible_clientIp (r : Request) : Visible r.clientIp.toList := by
  unfold clientIp
  dsimp only
  split
  · next ip hip =>
    obtain ⟨hforwarded, -⟩ := Option.filter_eq_some_iff.mp hip
    obtain ⟨v, hv, rfl⟩ := Option.map_eq_some_iff.mp hforwarded
    have hfirst : Visible (String.ofList (v.toList.takeWhile (· != ','))).toList := by
      rw [String.toList_ofList]
      exact (Headers.visible_of_trimmed? hv).1.mono (List.takeWhile_sublist _).subset
    exact hfirst.trimBlank
  · split
    · next ip hip => exact (Headers.visible_of_trimmed? hip).1
    · cases r.peer with
      | none => decide
      | some peer => exact IpAddr.visible_text peer.ip

theorem Request.visible_scheme (r : Request) : Visible r.scheme.toList ∧ r.scheme ≠ "" := by
  have hhttp : Visible "http".toList ∧ "http" ≠ "" := by decide
  have hhttps : Visible "https".toList ∧ "https" ≠ "" := by decide
  unfold scheme
  split
  · exact hhttps
  split
  · next hs => exact Headers.visible_of_trimmed? hs
  split
  · next hs => exact Headers.visible_of_trimmed? hs
  split
  · exact hhttps
  cases hs : r.headers.trimmed? "x-url-scheme" with
  | none => exact hhttp
  | some s => exact Headers.visible_of_trimmed? hs

end Gateway
