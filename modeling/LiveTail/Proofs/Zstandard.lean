import LiveTail.Zstandard.Writer

/-! Content compressed into stored blocks decompresses to itself.

A run over the blocks adds each of them to the content there is. It needs no more
steps than there are bytes, since every block has a header. -/
namespace LiveTail.Zstandard

theorem take_append (bytes rest : List UInt8) :
    take bytes.length (bytes ++ rest) = .ok (bytes, rest) := by
  rw [take, List.take_left, List.drop_left]
  exact if_pos rfl

theorem number_little {width n : Nat} (h : n < 256 ^ width) (rest : List UInt8) :
    number width (Bytes.little width n ++ rest) = .ok (n, rest) := by
  have htake := take_append (Bytes.little width n) rest
  rw [Bytes.length_little] at htake
  rw [number, htake]
  show Except.ok (Bytes.ofLittle (Bytes.little width n), rest) = _
  rw [Bytes.ofLittle_little h]

/-- What is written before the blocks. -/
def Header.stored : Header := { window := 2 ^ 17, contentSize := none, checksum := false }

theorem Header.read_header (rest : List UInt8) :
    read (Writer.header ++ rest) = .ok (stored, rest) := by
  cbv

theorem packed_append (front back : List UInt8) :
    packed (front ++ back) = packed front ++ packed back := by
  apply ByteArray.ext
  simp [packed]

namespace Content

theorem addBlock_stored (c : Content) {block : List UInt8} (h : block.length ≤ Header.maxBlock)
    (rest : List UInt8) :
    c.addBlock .stored 0 block.length (block ++ rest) =
      .ok ({ c with bytes := c.bytes ++ packed block }, rest) := by
  have hlimit : ¬ Header.stored.storedLimit < block.length := Nat.not_lt.mpr h
  simp only [addBlock, if_neg hlimit, take_append]
  rfl

theorem number_blockHeader (last : Bool) {size : Nat} (h : size ≤ Header.maxBlock)
    (rest : List UInt8) :
    number 3 (Writer.blockHeader last size ++ rest) =
      .ok (8 * size + if last then 1 else 0, rest) := by
  have hbound : 8 * size + (if last then 1 else 0) < 256 ^ 3 := by
    simp only [Header.maxBlock] at h
    split <;> omega
  exact number_little hbound rest

theorem addBlocks_more (c : Content) {block : List UInt8} (h : block.length ≤ Header.maxBlock)
    (rest : List UInt8) (fuel : Nat) :
    c.addBlocks .stored (Writer.blockHeader false block.length ++ (block ++ rest)) (fuel + 1) =
      ({ c with bytes := c.bytes ++ packed block } : Content).addBlocks .stored rest fuel := by
  have hkind : 8 * block.length / 2 % 4 = 0 := by omega
  have hsize : 8 * block.length / 8 = block.length := by omega
  have hmore : ¬ 8 * block.length % 2 = 1 := by omega
  simp only [addBlocks, number_blockHeader false h, Bool.false_eq_true, if_false, Nat.add_zero,
    hkind, hsize, if_neg hmore, c.addBlock_stored h, bind, Except.bind]

theorem addBlocks_last (c : Content) {block : List UInt8} (h : block.length ≤ Header.maxBlock)
    (fuel : Nat) :
    c.addBlocks .stored (Writer.blockHeader true block.length ++ block) (fuel + 1) =
      .ok ({ c with bytes := c.bytes ++ packed block }, []) := by
  have hkind : (8 * block.length + 1) / 2 % 4 = 0 := by omega
  have hsize : (8 * block.length + 1) / 8 = block.length := by omega
  have hlast : (8 * block.length + 1) % 2 = 1 := by omega
  have hblock := c.addBlock_stored h []
  rw [List.append_nil] at hblock
  have hcheck : ∀ d : Content, d.check .stored = .ok () := fun _ => rfl
  simp only [addBlocks, number_blockHeader true h, if_true, hkind, hsize, if_pos hlast, hblock,
    hcheck, bind, Except.bind, pure, Except.pure]
  split <;> rfl

theorem addBlocks_blocks (c : Content) (content : List UInt8) {fuel : Nat}
    (h : (Writer.blocks content).length ≤ fuel) :
    c.addBlocks .stored (Writer.blocks content) fuel =
      .ok ({ c with bytes := c.bytes ++ packed content }, []) := by
  fun_induction Writer.blocks content generalizing c fuel with
  | case1 content hsmall =>
    have hheader : (Writer.blockHeader true content.length).length = 3 := Bytes.length_little ..
    rw [List.length_append, hheader] at h
    obtain ⟨fuel, rfl⟩ := Nat.exists_eq_add_of_le' (show 1 ≤ fuel by omega)
    exact c.addBlocks_last hsmall fuel
  | case2 content hlarge ih =>
    have hheader : (Writer.blockHeader false Header.maxBlock).length = 3 := Bytes.length_little ..
    simp only [List.length_append, hheader] at h
    obtain ⟨fuel, rfl⟩ := Nat.exists_eq_add_of_le' (show 1 ≤ fuel by omega)
    have hblock : (content.take Header.maxBlock).length = Header.maxBlock :=
      List.length_take_of_le (Nat.le_of_not_le hlarge)
    have hstep := c.addBlocks_more (Nat.le_of_eq hblock)
      (Writer.blocks (content.drop Header.maxBlock)) fuel
    rw [hblock] at hstep
    rw [hstep, ih _ (by omega), ByteArray.append_assoc, ← packed_append, List.take_append_drop]

end Content

theorem readFrame_encode (content : List UInt8) :
    readFrame (encode content) = .ok (content, []) := by
  have hmagic : number 4 (encode content) = .ok (magic, Writer.header ++ Writer.blocks content) :=
    number_little (by decide) _
  have hblocks := ({} : Content).addBlocks_blocks content (Nat.le_refl _)
  have hcontent : (ByteArray.empty ++ packed content).data.toList = content := by
    simp [packed]
  simp only [readFrame, hmagic, if_true, readContent, Header.read_header, hblocks, hcontent, bind,
    Except.bind]
  rfl

/-- Data of one frame decompresses to what is in that frame. -/
theorem decode_of_readFrame {bytes content : List UInt8} (h : readFrame bytes = .ok (content, [])) :
    decode bytes = .ok content := by
  rw [decode, readFrames, h]
  rfl

/-- **Decompression undoes compression.** -/
theorem decode_encode (content : List UInt8) : decode (encode content) = .ok content :=
  decode_of_readFrame (readFrame_encode content)

end LiveTail.Zstandard
