import LiveTail.Proofs.Packed
import LiveTail.Proofs.Reading
import LiveTail.Proofs.Zstandard

/-! Readers that run out of bytes.

Reading a MessagePack value is local, and so is reading a frame of Zstandard data: one
combinator after the other, up to the whole of it. So neither reads a shorter beginning of what
it reads to the end (`Local.truncated`). -/
namespace LiveTail

/-! ### MessagePack -/

namespace MessagePack

theorem local_map {α β : Type} {read : List UInt8 → Read α} (h : Local read) (f : α → β) :
    Local fun bytes => (read bytes).map f := by
  refine ⟨fun hb more => ?_⟩
  obtain ⟨a, ha, rfl⟩ := Read.of_map hb
  simp only [h.append ha more, Read.map]

theorem local_andThen {α β : Type} {read : List UInt8 → Read α} {f : α → List UInt8 → Read β}
    (h : Local read) (hf : ∀ a, Local (f a)) : Local fun bytes => (read bytes).andThen f := by
  refine ⟨fun hb more => ?_⟩
  obtain ⟨a, after, ha, hb⟩ := Read.of_andThen hb
  simp only [h.append ha more, Read.andThen, (hf a).append hb more]

namespace Reader

theorem local_number (width : Nat) : Local (number width) :=
  Local.front width Bytes.ofBig fun _ => ReadError.number

theorem local_body (n : Nat) : Local (body n) :=
  Local.front n (fun content => content) fun content => ReadError.body n content.length

theorem local_length (l : Length) : Local (length l) := by
  cases l with
  | here n =>
    refine ⟨fun h more => ?_⟩
    cases h
    rfl
  | next width => exact local_number width

theorem local_costing {α : Type} {read : Nat → List UInt8 → Read α} (h : ∀ left, Local (read left))
    (budget : Nat) : Local fun bytes => costing budget fun left => read left bytes := by
  refine ⟨fun ha more => ?_⟩
  obtain ⟨left, rfl, ha⟩ := of_costing ha
  exact (h left).append ha more

theorem local_items {α : Type} {item : List UInt8 → Read α} (h : Local item) (n : Nat) :
    Local (items item n) := by
  induction n with
  | zero =>
    refine ⟨fun hxs more => ?_⟩
    cases hxs
    rfl
  | succ n ih => exact local_andThen h fun a => local_map ih (a :: ·)

theorem local_pair {α : Type} {item : List UInt8 → Read α} (h : Local item) : Local (pair item) :=
  local_andThen h fun key => local_map h (key, ·)

theorem local_text (budget n : Nat) : Local (text budget n) := by
  refine local_costing (fun left => ?_) budget
  exact local_costing (fun _ => local_map (local_body n) string) left

theorem local_extension (budget n : Nat) : Local (extension budget n) := by
  refine local_costing (fun left => ?_) budget
  refine local_andThen (local_number 1) fun type => ?_
  exact local_costing (fun _ => local_map (local_body n) _) left

/-- The items of a collection are read with what is left of the budget. -/
theorem local_content {left : Nat} (hitem : ∀ inner, left = inner + 1 → Local (value inner))
    (head : Head) : Local (content left (child left) head) := by
  cases head with
  | value v =>
    refine ⟨fun h more => ?_⟩
    cases h
    rfl
  | unsigned width => exact local_map (local_number width) _
  | signed width => exact local_map (local_number width) _
  | float32 => exact local_map (local_number 4) _
  | float64 => exact local_map (local_number 8) _
  | str l => exact local_andThen (local_length l) fun n => local_text left n
  | bin l =>
    exact local_andThen (local_length l) fun n =>
      local_costing (fun _ => local_map (local_body n) _) left
  | ext l => exact local_andThen (local_length l) fun n => local_extension left n
  | array l =>
    refine local_andThen (local_length l) fun n => ?_
    cases left with
    | zero => exact ⟨nofun⟩
    | succ inner => exact local_map (local_items (hitem inner rfl) n) _
  | map l =>
    refine local_andThen (local_length l) fun n => ?_
    cases left with
    | zero => exact ⟨nofun⟩
    | succ inner => exact local_map (local_items (local_pair (hitem inner rfl)) n) _

theorem local_value (budget : Nat) : Local (value budget) := by
  induction budget using Nat.strongRecOn with
  | ind budget ih =>
    refine ⟨fun {bytes} _ _ h more => ?_⟩
    cases budget with
    | zero => cases h
    | succ left =>
      cases bytes with
      | nil => cases h
      | cons b after =>
        have hcontent : Local (content left (child left) (Head.ofByte b)) :=
          local_content (fun inner hinner => ih inner (by omega)) _
        rw [value_cons] at h
        rw [List.cons_append, value_cons]
        exact hcontent.append h more

end Reader

/-- **A value cannot be read from a part of its bytes.** -/
theorem read_truncated {v : Value} (h : v.Fits Reader.budget) {front : List UInt8}
    (hfront : front <+: write v) (hne : front ≠ write v) : ∃ e, read front = .error e := by
  have hwhole := read_write_packed h []
  rw [List.append_nil] at hwhole
  exact (Reader.local_value Reader.budget).truncated hwhole hfront hne

end MessagePack

/-! ### Zstandard -/

namespace Zstandard

section Local
variable {α β : Type}

theorem local_pure (a : α) : Local fun bytes => (pure (a, bytes) : Except Error _) :=
  ⟨fun h more => by cases h; rfl⟩

theorem local_throw (e : Error) (f : PUnit → List UInt8 → Except Error (α × List UInt8)) :
    Local fun bytes => throw e >>= (f · bytes) := ⟨nofun⟩

theorem local_ite {c : Prop} [Decidable c] {read other : List UInt8 → Except Error (α × List UInt8)}
    (h : Local read) (h' : Local other) :
    Local fun bytes => if c then read bytes else other bytes := by
  split
  · exact h
  · exact h'

theorem local_bind {read : List UInt8 → Except Error (α × List UInt8)}
    {f : α × List UInt8 → Except Error (β × List UInt8)} (h : Local read)
    (hf : ∀ a, Local fun bytes => f (a, bytes)) : Local fun bytes => read bytes >>= f := by
  refine ⟨fun hb more => ?_⟩
  obtain ⟨⟨a, after⟩, ha, hb⟩ := of_bind hb
  simp only [h.append ha more, bind, Except.bind, (hf a).append hb more]

/-- A step that reads nothing may come first. -/
theorem local_after (x : Except Error α) {f : α → List UInt8 → Except Error (β × List UInt8)}
    (hf : ∀ a, Local (f a)) : Local fun bytes => x >>= (f · bytes) := by
  cases x with
  | error e => exact ⟨nofun⟩
  | ok a => exact hf a

end Local

theorem local_take (count : Nat) : Local (take count) :=
  Local.front count (fun bytes => bytes) fun _ => Error.truncated

theorem local_number (count : Nat) : Local (number count) :=
  local_bind (local_take count) fun _ => local_pure _

theorem Header.local_read : Local read := by
  refine local_bind (local_number 1) fun head => ?_
  refine local_ite (local_throw _ _) ?_
  refine local_bind (local_number _) fun descriptor => ?_
  refine local_bind (local_number _) fun dictionary => ?_
  refine local_bind (local_number _) fun size => ?_
  refine local_ite (local_throw _ _) ?_
  exact local_ite (local_throw _ _) (local_pure _)

namespace Content

theorem local_addBlock (c : Content) (h : Header) (kind size : Nat) :
    Local (c.addBlock h kind size) := by
  unfold addBlock
  match kind with
  | 0 =>
    refine local_ite (local_throw _ _) ?_
    exact local_bind (local_take size) fun _ => local_pure _
  | 1 =>
    refine local_ite (local_throw _ _) ?_
    exact local_bind (local_take 1) fun _ => local_pure _
  | 2 =>
    refine local_ite (local_throw _ _) ?_
    refine local_bind (local_take size) fun block => ?_
    refine local_ite (local_pure _) ?_
    exact local_after _ fun added => local_pure added
  | _ + 3 => exact ⟨nofun⟩

/-- More bytes are read with more steps to spare, of which none is taken. -/
theorem addBlocks_append {c d : Content} {h : Header} {bytes rest : List UInt8} {fuel : Nat}
    (hread : c.addBlocks h bytes fuel = .ok (d, rest)) (more : List UInt8) {fuel' : Nat}
    (hfuel : fuel ≤ fuel') : c.addBlocks h (bytes ++ more) fuel' = .ok (d, rest ++ more) := by
  induction fuel generalizing c bytes fuel' with
  | zero => cases hread
  | succ fuel ih =>
    obtain ⟨fuel', rfl⟩ := Nat.exists_eq_add_of_le' (show 1 ≤ fuel' by omega)
    obtain ⟨⟨head, after⟩, hhead, hread⟩ := of_bind hread
    obtain ⟨⟨added, after'⟩, hadded, hread⟩ := of_bind hread
    have hhead' := (local_number 3).append hhead more
    have hadded' := (local_addBlock c h _ _).append hadded more
    simp only [addBlocks, hhead', hadded', bind, Except.bind]
    dsimp only at hread
    split at hread
    next hlast =>
      rw [if_pos hlast]
      have hend : Local fun bytes => do
          if h.isWhole || !isEmptyBlock (head / 2 % 4) (head / 8) then added.check h
          return (added, bytes) :=
        local_ite (local_after _ fun _ => local_pure added) (local_pure added)
      exact hend.append hread more
    next hmore =>
      rw [if_neg hmore]
      exact ih hread (by omega)

end Content

theorem local_checkSum (h : Header) (content : List UInt8) :
    Local fun bytes => do return (content, ← checkSum h content bytes) := by
  refine ⟨fun {bytes rest _} hread more => ?_⟩
  obtain ⟨after, hsum, hread⟩ := of_bind hread
  cases hread
  have hmore : checkSum h content (bytes ++ more) = .ok (rest ++ more) := by
    unfold checkSum at hsum ⊢
    split at hsum
    next hchecked =>
      obtain ⟨⟨sum, after⟩, hnumber, hsum⟩ := of_bind hsum
      simp only [if_pos hchecked, (local_number 4).append hnumber more, bind, Except.bind]
      dsimp only at hsum
      split at hsum
      next hsame =>
        cases hsum
        rw [if_pos hsame]
        rfl
      next => cases hsum
    next hnot =>
      cases hsum
      rw [if_neg hnot]
      rfl
  simp only [hmore, bind, Except.bind]
  rfl

theorem local_readContent : Local readContent := by
  refine local_bind Header.local_read fun header => ?_
  refine local_bind ⟨fun hread more => ?_⟩ fun content => local_checkSum header _
  have hlength : ∀ bytes : List UInt8, bytes.length ≤ (bytes ++ more).length := fun bytes => by
    rw [List.length_append]
    omega
  exact Content.addBlocks_append hread more (hlength _)

theorem local_readFrame : Local readFrame := by
  refine local_bind (local_number 4) fun word => ?_
  refine local_ite local_readContent ?_
  refine local_ite ?_ ⟨nofun⟩
  refine local_bind (local_number 4) fun size => ?_
  exact local_bind (local_take size) fun _ => local_pure _

/-- What decompresses begins with a frame. -/
theorem of_decode {bytes content : List UInt8} (h : decode bytes = .ok content) :
    ∃ first rest, readFrame bytes = .ok (first, rest) := by
  obtain ⟨⟨first, rest⟩, hfirst, -⟩ := of_bind h
  exact ⟨first, rest, hfirst⟩

/-- **Bytes that end inside a frame do not decompress.** -/
theorem decode_truncated {whole content : List UInt8} (h : readFrame whole = .ok (content, []))
    {front : List UInt8} (hfront : front <+: whole) (hne : front ≠ whole) :
    ∃ e, decode front = .error e := by
  obtain ⟨e, he⟩ := local_readFrame.truncated h hfront hne
  cases hdecode : decode front with
  | error e => exact ⟨e, rfl⟩
  | ok content =>
    obtain ⟨first, rest, hfirst⟩ := of_decode hdecode
    rw [he] at hfirst
    cases hfirst

end Zstandard
end LiveTail
