import AllInOne.MessageReads
import AllInOne.StmAck

namespace AllInOne.UpdateReads

open CFloat Bootloader StmUpdate MessageHandler MessageReads

variable {F : Type} [FloatOps F]

/-- An update packet whose checksum is looked at: it stands for the type, the number or the size of the
packet, or it fills up a chunk of odd length. -/
def CrcRead (length : UInt8) (data : UInt8 → UInt8) : Prop :=
  length = 0 ∨ length = 1 ∧ (data 0 = 4 ∨ data 0 = 5) ∨
    (data 0 = 4 ∧ data 1 = 0) ∧ (length = 2 ∨ length = 3 ∧ data 2 = 0 ∨
      (length = 4 ∨ length = 5 ∧ data 4 = 0xC0) ∧ data 2 = 0 ∧ data 3 = 0) ∨
    data 0 = 5 ∧ 2 ≤ length.toNat ∧ length.toNat % 2 = 1

section

variable {p q : Packet} {o : Outcome} {s : Sys}

theorem or_digits {a b c d : ℕ} (hb : b < 2 ^ 8) (hc : c < 2 ^ 8) (hd : d < 2 ^ 8) :
    (a * 2 ^ 24 ||| b * 2 ^ 16) ||| c * 2 ^ 8 ||| d = a * 2 ^ 24 + b * 2 ^ 16 + c * 2 ^ 8 + d := by
  have hhigh : a * 2 ^ 24 + b * 2 ^ 16 = (a * 2 ^ 8 + b) * 2 ^ 16 := by
    rw [Nat.add_mul, Nat.mul_assoc]
    rfl
  have hmid : (a * 2 ^ 8 + b) * 2 ^ 16 + c * 2 ^ 8 = ((a * 2 ^ 8 + b) * 2 ^ 8 + c) * 2 ^ 8 := by
    rw [Nat.add_mul (_ * 2 ^ 8) c, Nat.mul_assoc _ (2 ^ 8) (2 ^ 8)]
    rfl
  rw [Words.or_shift (by omega), hhigh, Words.or_shift (by omega), hmid, Words.or_shift hd]

theorem fileLen_toNat (p : Packet) :
    (fileLen p).toNat = (p.data 2).toNat * 2 ^ 24 + (p.data 3).toNat * 2 ^ 16 +
    (p.data 4).toNat * 2 ^ 8 + (p.data 5).toNat := by
  have hshift (b : UInt8) (n : UInt32) (hn : n.toNat ≤ 24) :
      (b.toUInt32 <<< n).toNat = b.toNat * 2 ^ n.toNat := by
    have hlt := b.toNat_lt
    have hpow : 2 ^ n.toNat ≤ 2 ^ 24 := Nat.pow_le_pow_right (by decide) hn
    have hmul : b.toNat * 2 ^ n.toNat ≤ 255 * 2 ^ 24 := Nat.mul_le_mul (by omega) hpow
    rw [UInt32.toNat_shiftLeft, UInt8.toNat_toUInt32, Nat.mod_eq_of_lt (show n.toNat < 32 by omega),
      Nat.shiftLeft_eq, Nat.mod_eq_of_lt (by omega)]
  have e24 : UInt32.toNat 24 = 24 := rfl
  have e16 : UInt32.toNat 16 = 16 := rfl
  have e8 : UInt32.toNat 8 = 8 := rfl
  rw [fileLen, UInt32.toNat_or, UInt32.toNat_or, UInt32.toNat_or, hshift _ 24 (by decide),
    hshift _ 16 (by decide),
    hshift _ 8 (by decide), UInt8.toNat_toUInt32, e24, e16, e8]
  exact or_digits (p.data 3).toNat_lt (p.data 4).toNat_lt (p.data 5).toNat_lt

/-- Two packets that the handler cannot tell apart. -/
theorem updateHandle_congr (hlen : p.length = q.length) (htag : IsTag p ↔ IsTag q)
    (h0 : p.data 0 = q.data 0)
    (hsol : q.data 0 = 4 → (p.data 1 = 0 ↔ q.data 1 = 0) ∧
      (q.data 1 = 0 → (fileLen p > 0xC000 ↔ fileLen q > 0xC000)))
    (hsod : q.data 0 = 5 → p.data 1 = q.data 1 ∧
      writeMessage s.dsp.wFlashAddr (chunkLength q.length) (fun i => p.data (i + 2)) =
        writeMessage s.dsp.wFlashAddr (chunkLength q.length) (fun i => q.data (i + 2))) :
    updateHandle p o s = updateHandle q o s := by
  have heot (t : Sys) : eotHandle p t = eotHandle q t := by rw [eotHandle, eotHandle, h0]
  have hca (t : Sys) : caHandle p t = caHandle q t := by rw [caHandle, caHandle, h0]
  have hsolEq : solHandle p s = solHandle q s := by
    rw [solHandle, solHandle, h0]
    by_cases h4 : q.data 0 = 4
    · obtain ⟨hone, hsize⟩ := hsol h4
      by_cases h1 : q.data 1 = 0
      · have hp : q.data 0 = 4 ∧ p.data 1 = 0 := ⟨h4, hone.mpr h1⟩
        have hq : q.data 0 = 4 ∧ q.data 1 = 0 := ⟨h4, h1⟩
        rw [if_pos hp, if_pos hq, if_congr (hsize h1) rfl rfl]
      · rw [if_neg fun h => h1 (hone.mp h.2), if_neg fun h => h1 h.2]
    · rw [if_neg fun h => h4 h.1, if_neg fun h => h4 h.1]
  have hsodEq : sodHandle p o (solHandle q s) = sodHandle q o (solHandle q s) := by
    rw [sodHandle, sodHandle, h0]
    by_cases h5 : q.data 0 = 5
    · obtain ⟨hone, hwrite⟩ := hsod h5
      have hsame : solHandle q s = s := if_neg fun h => absurd (h5.symm.trans h.1) (by decide)
      rw [hone, hsame, writeChunk, writeChunk, hlen]
      dsimp only
      rw [hwrite]
    · rw [if_neg h5, if_neg h5]
  rw [updateHandle, updateHandle, if_congr htag rfl rfl, hsolEq, hsodEq, heot, hca]

theorem writeMessage_congr {addr : UInt32} {n : UInt16} {a b : ℕ → UInt8}
    (h : ∀ i < n.toNat, a i = b i) :
    writeMessage addr n a = writeMessage addr n b := by
  have hmap : (List.range n.toNat).map a = (List.range n.toNat).map b :=
    List.map_congr_left fun i hi => h i (List.mem_range.mp hi)
  rw [writeMessage, writeMessage, hmap]

end

section

variable {length c : UInt8} {data : UInt8 → UInt8}

/-- The packet that the handler is called with. -/
def packet (length : UInt8) (data : UInt8 → UInt8) : Packet := ⟨length, fun i => data (UInt8.ofNat i)⟩

theorem packet_data {i : ℕ} (hi : i < length.toNat) :
    (packet length (withCrc length c data)).data i = (packet length data).data i := by
  refine withCrc_of_ne fun he => ?_
  have hnat := congrArg UInt8.toNat he
  have hlt := length.toNat_lt
  rw [UInt8.toNat_ofNat'] at hnat
  omega

theorem isTag_withCrc : IsTag (packet length (withCrc length c data)) ↔ IsTag (packet length data) := by
  refine and_congr_right fun hlen => ?_
  have hlen' : length = 11 := hlen
  have hmap : (List.range 11).map (packet length (withCrc length c data)).data =
      (List.range 11).map (packet length data).data :=
    List.map_congr_left fun i hi => packet_data (by rw [hlen']; exact List.mem_range.mp hi)
  rw [hmap]

theorem large_iff (p : Packet) : fileLen p > 0xC000 ↔ 0xC000 < (p.data 2).toNat * 2 ^ 24 +
    (p.data 3).toNat * 2 ^ 16 + (p.data 4).toNat * 2 ^ 8 + (p.data 5).toNat := by
  rw [gt_iff_lt, UInt32.lt_iff_toNat_lt, fileLen_toNat]
  rfl

theorem size_high {a b m n m' n' : ℕ} (h : a ≠ 0 ∨ b ≠ 0) :
    49152 < a * 2 ^ 24 + b * 2 ^ 16 + m * 2 ^ 8 + n ↔ 49152 < a * 2 ^ 24 + b * 2 ^ 16 + m' *
        2 ^ 8 + n' := by
  obtain h | h := h
  · have hpos := Nat.mul_le_mul_right (2 ^ 24) (Nat.pos_of_ne_zero h)
    exact iff_of_true (by omega) (by omega)
  · have hpos := Nat.mul_le_mul_right (2 ^ 16) (Nat.pos_of_ne_zero h)
    exact iff_of_true (by omega) (by omega)

theorem size_low {a b m n n' : ℕ} (hn : n < 256) (hn' : n' < 256) (h : m ≠ 192) :
    49152 < a * 2 ^ 24 + b * 2 ^ 16 + m * 2 ^ 8 + n ↔ 49152 < a * 2 ^ 24 + b * 2 ^ 16 + m *
        2 ^ 8 + n' := by
  by_cases hz : a ≠ 0 ∨ b ≠ 0
  · exact size_high hz
  · have ha : a = 0 := not_not.mp fun h => hz (Or.inl h)
    have hb : b = 0 := not_not.mp fun h => hz (Or.inr h)
    rw [ha, hb]
    omega

/-- The size is too large, or not, whatever the checksum is. -/
theorem large_withCrc (hnot : ¬CrcRead length data) (h4 : data 0 = 4) (h1 : data 1 = 0) :
    fileLen (packet length (withCrc length c data)) > 0xC000 ↔
        fileLen (packet length data) > 0xC000 := by
  have hread (i : ℕ) (hi : i < 256) (hne : length.toNat ≠ i) :
      (packet length (withCrc length c data)).data i = (packet length data).data i := by
    refine withCrc_of_ne fun he => hne ?_
    rw [← he, UInt8.toNat_ofNat', Nat.mod_eq_of_lt hi]
  have hshort {P : Prop} (h : length = 2 ∨ length = 3 ∧ data 2 = 0 ∨
      (length = 4 ∨ length = 5 ∧ data 4 = 0xC0) ∧ data 2 = 0 ∧ data 3 = 0) : P :=
    absurd (Or.inr (Or.inr (Or.inl ⟨⟨h4, h1⟩, h⟩))) hnot
  have hne {b v : UInt8} (hb : b ≠ v) : b.toNat ≠ v.toNat := fun h => hb (UInt8.toNat_inj.mp h)
  rw [large_iff, large_iff]
  by_cases l2 : length = 2
  · exact hshort (Or.inl l2)
  · rw [hread 2 (by decide) (hne l2)]
    by_cases l3 : length = 3
    · have h2 : data 2 ≠ 0 := fun h => hshort (Or.inr (Or.inl ⟨l3, h⟩))
      rw [hread 4 (by decide) (by rw [l3]; decide), hread 5 (by decide) (by rw [l3]; decide)]
      have hpos := Nat.mul_le_mul_right (2 ^ 24) (Nat.pos_of_ne_zero (hne h2))
      change 1 * 2 ^ 24 ≤ ((packet length data).data 2).toNat * 2 ^ 24 at hpos
      exact iff_of_true (by omega) (by omega)
    · rw [hread 3 (by decide) (hne l3)]
      by_cases l4 : length = 4
      · refine size_high ?_
        by_cases h2 : data 2 = 0
        · exact Or.inr (hne fun h3 => hshort (Or.inr (Or.inr ⟨Or.inl l4, h2, h3⟩)))
        · exact Or.inl (hne h2)
      · rw [hread 4 (by decide) (hne l4)]
        by_cases l5 : length = 5
        · by_cases h2 : data 2 = 0
          · by_cases h3 : data 3 = 0
            · have hm : data 4 ≠ 0xC0 := fun h => hshort (Or.inr (Or.inr ⟨Or.inr ⟨l5, h⟩, h2, h3⟩))
              exact size_low (UInt8.toNat_lt _) (UInt8.toNat_lt _) (hne hm)
            · exact size_high (Or.inr (hne h3))
          · exact size_high (Or.inl (hne h2))
        · rw [hread 5 (by decide) (hne l5)]

/-- The number of the last packet after an update packet at power-up. -/
def updated (length : UInt8) (l : List UInt8) : UInt8 :=
  (updateHandle (packet length (bytes l)) baseEnv.outcome (init fun _ => 0xFF)).dsp.dataNumber

/-- A device that has the packet's number due, at the start of the flash. -/
def dueSys (number : UInt8) : Sys := { init (fun _ => 0xFF) with dsp := ⟨number, userStart⟩ }

/-- The byte that fills up an odd chunk goes into the flash. -/
theorem odd_chunk (h5 : data 0 = 5) (h2 : 2 ≤ length.toNat) (hodd : length.toNat % 2 = 1) (c : UInt8) :
    (updateHandle (packet length (withCrc length c data)) baseEnv.outcome (dueSys (data 1))).boot.flash
      (userStart.toNat + (length.toNat - 2)) = c := by
  have hlt := length.toNat_lt
  have hread (i : ℕ) (hi : i < length.toNat) : (packet length (withCrc length c data)).data i =
      (packet length data).data i :=
    packet_data hi
  have hdata : (packet length (withCrc length c data)).data 0 = 5 := (hread 0 (by omega)).trans h5
  have hcount := StmAck.chunkLength_toNat h2
  have hfits : chunkLength length ≤ 1192 := by
    have hlimit : UInt16.toNat 1192 = 1192 := rfl
    rw [UInt16.le_iff_toNat_le, hcount, hlimit]
    omega
  have hreported :
      StmAck.Reported (dueSys (data 1)) (packet length (withCrc length c data)) baseEnv.outcome :=
    ⟨(hread 1 (by omega)).symm, hfits, rfl, 0, rfl⟩
  have hflash := (StmAck.reported_step (s := dueSys (data 1)) hdata rfl hreported).2.2.2
  have hpage := StmAck.chunkLength_page hfits
  have hlast : length.toNat - 2 < (chunkLength length).toNat := by omega
  have hready : StmAck.Programmable userStart (chunkLength length).toNat
      (fun i => (packet length (withCrc length c data)).data (i + 2)) (fun _ => false)
          (fun _ => 0xFF) := by
    intro i hi
    have hstart : userStart.toNat = 0x08004000 := rfl
    have hbase : flashBase = 0x08000000 := rfl
    have hend : flashEnd = 0x08010000 := rfl
    refine ⟨by omega, ?_⟩
    show (0xFF : UInt8) &&& _ = _
    rw [UInt8.and_comm]
    exact UInt8.and_neg_one
  have hheld := (StmAck.written_programmed hpage.2 hpage.1 _ _ _).mpr hready (length.toNat - 2) hlast
  have hbyte : (packet length (withCrc length c data)).data (length.toNat - 2 + 2) = c := by
    have hindex : UInt8.ofNat (length.toNat - 2 + 2) = length := by
      rw [Nat.sub_add_cancel h2, UInt8.ofNat_toNat]
    show withCrc length c data (UInt8.ofNat (length.toNat - 2 + 2)) = c
    rw [hindex, withCrc_self]
  exact (congrFun hflash _).trans (hheld.2.trans hbyte)

theorem fixed_aioStmUpdate (hfilled : ∀ i, length < i → data i = 0) :
    Fixed F .aioStmUpdate length data ↔ ¬CrcRead length data := by
  constructor
  · rintro hfix (rfl | ⟨rfl, h4 | h5⟩ | ⟨⟨h4, h1⟩, hshort⟩ | ⟨h5, h2, hodd⟩)
    · have heq (c : UInt8) : withCrc 0 c data = bytes [c] := withCrc_eq hfilled
      have h := hfix 0 4 baseEnv base
      rw [heq, heq] at h
      exact matters (fun d => d.update.dsp.dataNumber) (updated 0 [0]) (updated 0 [4]) rfl rfl
        (by decide +kernel) h
    · have heq (c : UInt8) : withCrc 1 c data = bytes [data 0, c] := withCrc_eq hfilled
      have h := hfix 0 1 baseEnv base
      rw [heq, heq, h4] at h
      exact matters (fun d => d.update.dsp.dataNumber) (updated 1 [4, 0]) (updated 1 [4, 1]) rfl rfl
        (by decide +kernel) h
    · have heq (c : UInt8) : withCrc 1 c data = bytes [data 0, c] := withCrc_eq hfilled
      have h := hfix 0 1 baseEnv base
      rw [heq, heq, h5] at h
      exact matters (fun d => d.update.dsp.dataNumber) (updated 1 [5, 0]) (updated 1 [5, 1]) rfl rfl
        (by decide +kernel) h
    · obtain rfl | ⟨rfl, h2⟩ | ⟨rfl | ⟨rfl, hm⟩, h2, h3⟩ := hshort
      · have heq (c : UInt8) : withCrc 2 c data = bytes [data 0, data 1, c] := withCrc_eq hfilled
        have h := hfix 0 1 baseEnv base
        rw [heq, heq, h4, h1] at h
        exact matters (fun d => d.update.dsp.dataNumber) (updated 2 [4, 0, 0])
          (updated 2 [4, 0, 1]) rfl rfl
          (by decide +kernel) h
      · have heq (c : UInt8) : withCrc 3 c data =
          bytes [data 0, data 1, data 2, c] := withCrc_eq hfilled
        have h := hfix 0 1 baseEnv base
        rw [heq, heq, h4, h1, h2] at h
        exact matters (fun d => d.update.dsp.dataNumber) (updated 3 [4, 0, 0, 0])
          (updated 3 [4, 0, 0, 1]) rfl rfl
          (by decide +kernel) h
      · have heq (c : UInt8) : withCrc 4 c data = bytes [data 0, data 1, data 2, data 3,
          c] := withCrc_eq hfilled
        have h := hfix 0 0xC1 baseEnv base
        rw [heq, heq, h4, h1, h2, h3] at h
        exact matters (fun d => d.update.dsp.dataNumber) (updated 4 [4, 0, 0, 0, 0])
          (updated 4 [4, 0, 0, 0, 0xC1])
          rfl rfl (by decide +kernel) h
      · have heq (c : UInt8) : withCrc 5 c data = bytes [data 0, data 1, data 2, data 3, data 4, c] :=
          withCrc_eq hfilled
        have h := hfix 0 1 baseEnv base
        rw [heq, heq, h4, h1, h2, h3, hm] at h
        exact matters (fun d => d.update.dsp.dataNumber) (updated 5 [4, 0, 0, 0, 0xC0, 0])
          (updated 5 [4, 0, 0, 0, 0xC0, 1]) rfl rfl (by decide +kernel) h
    · have h := hfix 0 1 baseEnv { (base : Device F) with update := dueSys (data 1) }
      refine matters (fun d => d.update.boot.flash (userStart.toNat + (length.toNat - 2))) 0 1 ?_
        ?_ (by decide) h
      · exact odd_chunk h5 h2 hodd 0
      · exact odd_chunk h5 h2 hodd 1
  · intro hnot c c' env d
    have hread (c : UInt8) : handle .aioStmUpdate length (withCrc length c data) env d =
        { d with
            stm32MaskCount := 0, update :=
              updateHandle (packet length data) env.outcome d.update } := by
      refine congrArg (fun s => { d with stm32MaskCount := 0, update := s }) ?_
      have hpos : 0 < length.toNat := Nat.pos_of_ne_zero fun h => hnot (Or.inl (UInt8.toNat_inj.mp h))
      have hsecond (h : data 0 = 4 ∨ data 0 = 5) : 1 < length.toNat := by
        have hne : length.toNat ≠ 1 := fun he => hnot (Or.inr (Or.inl ⟨UInt8.toNat_inj.mp he, h⟩))
        omega
      refine updateHandle_congr rfl isTag_withCrc (packet_data hpos) (fun h4 => ?_) fun h5 => ?_
      · have hone : (packet length (withCrc length c data)).data 1 = (packet length data).data 1 :=
          packet_data (hsecond (Or.inl h4))
        exact ⟨iff_of_eq (congrArg (· = 0) hone), fun h1 => large_withCrc hnot h4 h1⟩
      · have h2 := hsecond (Or.inr h5)
        refine ⟨packet_data h2, writeMessage_congr fun i hi => packet_data ?_⟩
        have heven : length.toNat % 2 ≠ 1 := fun h => hnot (Or.inr (Or.inr (Or.inr ⟨h5, h2, h⟩)))
        have hi' : i < (chunkLength length).toNat := hi
        rw [StmAck.chunkLength_toNat h2] at hi'
        omega
    rw [hread, hread]

end

end AllInOne.UpdateReads
