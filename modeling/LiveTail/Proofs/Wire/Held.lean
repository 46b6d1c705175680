import LiveTail.Json.Reader
import LiveTail.Proofs.Dictionary
import LiveTail.Wire.Message

/-! What is read can be held.

A whole number has its place in 64 bits, signed or not, and the entries of an object are in
order. That is so of every value that a text gives, however it is nested (`gives_value`), and
so of the payload of every message (`held_read?`). -/
namespace LiveTail

/-! ### Values that can be held -/

namespace Json

mutual
/-- Whether a value can be held: its whole numbers fit 64 bits, signed or not, and the entries
of its objects are in order. -/
def Held : Json → Prop
  | .null | .bool _ | .float _ | .str _ => True
  | .int n => -2 ^ 63 ≤ n ∧ n < 2 ^ 64
  | .array items => HeldItems items
  | .object entries => Entries.Ordered entries ∧ HeldEntries entries

def HeldItems : List Json → Prop
  | [] => True
  | v :: rest => v.Held ∧ HeldItems rest

def HeldEntries : List (String × Json) → Prop
  | [] => True
  | (_, v) :: rest => v.Held ∧ HeldEntries rest
end

theorem heldItems_iff {items : List Json} : HeldItems items ↔ ∀ v ∈ items, v.Held := by
  induction items with
  | nil => simp [HeldItems]
  | cons v rest ih => rw [HeldItems, List.forall_mem_cons, ih]

theorem heldEntries_iff {entries : List (String × Json)} :
    HeldEntries entries ↔ ∀ e ∈ entries, e.2.Held := by
  induction entries with
  | nil => simp [HeldEntries]
  | cons e rest ih => rw [HeldEntries, List.forall_mem_cons, ih]

theorem held_of_lookup {entries : List (String × Json)} (h : HeldEntries entries) {key : String}
    {v : Json} (hkey : entries.lookup key = some v) : v.Held := by
  obtain ⟨before, after, rfl, -⟩ := List.lookup_eq_some_iff.mp hkey
  exact heldEntries_iff.mp h (key, v) (List.mem_append_right _ (List.mem_cons_self ..))

end Json

theorem Entries.mem_of_foldl_put {α : Type} {entries start : List (String × α)} {e : String × α}
    (h : e ∈ entries.foldl (fun sorted e => put e.1 e.2 sorted) start) :
    e ∈ entries ∨ e ∈ start := by
  induction entries generalizing start with
  | nil => exact .inr h
  | cons head rest ih =>
    rcases ih h with hrest | hput
    · exact .inl (List.mem_cons_of_mem head hrest)
    · rcases mem_put hput with rfl | hstart
      · exact .inl (List.mem_cons_self ..)
      · exact .inr hstart

theorem Entries.ordered_ofList {α : Type} (entries : List (String × α)) :
    Ordered (ofList entries) := by
  have hentries := Dictionary.entries_foldl_put entries .empty
  rw [ofList]
  exact hentries ▸ (Dictionary.ofList entries).ordered

theorem Json.held_ofEntries {entries : List (String × Json)} (h : ∀ e ∈ entries, e.2.Held) :
    (Json.ofEntries entries).Held := by
  refine ⟨Entries.ordered_ofList entries, heldEntries_iff.mpr fun e he => ?_⟩
  rcases Entries.mem_of_foldl_put he with hmem | hnone
  · exact h e hmem
  · cases hnone

/-! ### What readers give -/

namespace Json.Reader
variable {α : Type}

/-- All that a reader gives has a property. -/
def Gives (item : Scan α) (p : α → Prop) : Prop :=
  ∀ text a rest, item text = some (a, rest) → p a

theorem Gives.map {β : Type} {item : Scan α} {p : α → Prop} {q : β → Prop} (h : Gives item p)
    {f : α → β} (hf : ∀ a, p a → q (f a)) :
    Gives (fun text => (item text).map fun (a, rest) => (f a, rest)) q := by
  intro text b rest hb
  obtain ⟨⟨a, rest'⟩, hitem, hpair⟩ := Option.map_eq_some_iff.mp hb
  cases hpair
  exact hf a (h _ _ _ hitem)

section Collections
variable {item : Scan α} {p : α → Prop} (h : Gives item p) (close : Char)
include h

theorem gives_elements (fuel : Nat) : Gives (elements item close fuel) fun as => ∀ a ∈ as, p a := by
  intro text as rest has
  induction fuel generalizing text as rest with
  | zero => cases has
  | succ fuel ih =>
    rw [elements] at has
    split at has
    next => cases has
    next a after hitem =>
      have ha := h _ _ _ hitem
      split at has
      next =>
        obtain ⟨⟨more, rest'⟩, hmore, hpair⟩ := Option.map_eq_some_iff.mp has
        cases hpair
        exact List.forall_mem_cons.mpr ⟨ha, ih _ _ _ hmore⟩
      next =>
        split at has
        next =>
          cases has
          exact List.forall_mem_singleton.mpr ha
        next => cases has
      next => cases has

theorem gives_sequence : Gives (sequence item close) fun as => ∀ a ∈ as, p a := by
  intro text as rest has
  rw [sequence] at has
  split at has
  next => cases has
  next =>
    split at has
    next =>
      cases has
      exact fun _ ha => absurd ha List.not_mem_nil
    next => exact gives_elements h close _ _ _ _ has

end Collections

theorem gives_member {value : String → Scan α} {p : α → Prop} (h : ∀ key, Gives (value key) p) :
    Gives (member value) p := by
  intro text a rest ha
  obtain ⟨⟨key, after⟩, -, ha⟩ := Option.bind_eq_some_iff.mp ha
  dsimp only at ha
  split at ha
  next => exact h key _ _ _ ha
  next => cases ha

theorem held_value? {parts : Parts} {v : Json} (h : parts.value? = some v) : v.Held := by
  obtain ⟨negative, whole, places, exponent⟩ := parts
  simp only [Parts.value?] at h
  cases negative with
  | true =>
    simp only [if_true] at h
    split at h
    next hwhole =>
      cases h
      constructor <;> omega
    next =>
      split at h <;> cases h
      trivial
  | false =>
    simp only [Bool.false_eq_true, if_false] at h
    split at h
    next hwhole =>
      cases h
      constructor <;> omega
    next =>
      split at h <;> cases h
      trivial

theorem gives_literal : Gives literal Held := by
  intro text v rest h
  unfold literal at h
  split at h <;> cases h <;> trivial

theorem gives_scalar : Gives scalar Held := by
  intro text v rest h
  unfold scalar at h
  split at h
  next =>
    obtain ⟨found, -, hpair⟩ := Option.map_eq_some_iff.mp h
    cases hpair
    trivial
  next =>
    split at h
    next =>
      obtain ⟨⟨parts, after⟩, -, h⟩ := Option.bind_eq_some_iff.mp h
      obtain ⟨number, hnumber, hpair⟩ := Option.bind_eq_some_iff.mp h
      cases hpair
      exact held_value? hnumber
    next => exact gives_literal _ _ _ h
  next => cases h

/-- **Every value that is read can be held.** -/
theorem gives_value (budget : Nat) : Gives (value budget) Held := by
  induction budget with
  | zero =>
    intro text v rest h
    rw [value.eq_def] at h
    split at h
    next heq => cases heq
    next heq => cases heq
    next => exact gives_scalar _ _ _ h
  | succ inner ih =>
    intro text v rest h
    rw [value.eq_def] at h
    split at h
    next heq =>
      obtain rfl := Nat.succ.inj heq
      have hitems := gives_sequence ih ']'
      exact hitems.map (f := Json.array) (fun items hall => heldItems_iff.mpr hall) _ _ _ h
    next heq =>
      obtain rfl := Nat.succ.inj heq
      have hentry : ∀ key, Gives
          (fun text => (value inner text).map fun p => ((key, p.1), p.2))
          fun e : String × Json => e.2.Held :=
        fun key => ih.map fun v hv => hv
      have hentries := gives_sequence (gives_member hentry) '\x7d'
      exact hentries.map (f := Json.ofEntries) (fun entries hall => held_ofEntries hall) _ _ _ h
    next => exact gives_scalar _ _ _ h

end Json.Reader

/-! ### Messages -/

namespace Message
open Json.Reader

/-- Whether a member of a message is one that can be held. -/
def Member.Held : Member → Prop
  | .payload value => value.Held
  | _ => True

theorem gives_member (key : String) : Gives (member key) Member.Held := by
  intro text part rest h
  rw [member] at h
  split at h
  next =>
    obtain ⟨found, -, hpair⟩ := Option.map_eq_some_iff.mp h
    cases hpair
    trivial
  next =>
    split at h
    next =>
      have hvalue := gives_value (nesting - 1)
      exact hvalue.map (f := Member.payload) (fun v hv => hv) _ _ _ h
    next =>
      obtain ⟨found, -, hpair⟩ := Option.map_eq_some_iff.mp h
      cases hpair
      trivial

theorem held_ofMembers? {members : List Member} (h : ∀ part ∈ members, part.Held) {m : Message}
    (hm : ofMembers? members = some m) : m.payload.Held := by
  have hpayload : ∀ value ∈ members.filterMap (fun | .payload value => some value | _ => none),
      value.Held := by
    intro value hvalue
    obtain ⟨part, hpart, hsome⟩ := List.mem_filterMap.mp hvalue
    cases part with
    | payload other =>
      cases hsome
      exact h _ hpart
    | kind text => cases hsome
    | other => cases hsome
  unfold ofMembers? at hm
  dsimp only at hm
  split at hm
  next =>
    cases hm
    trivial
  next kind payload _ hone =>
    cases hm
    exact hpayload payload (hone ▸ List.mem_singleton_self payload)
  next => cases hm

theorem held_ofItems? {items : List Json} (h : ∀ v ∈ items, v.Held) {m : Message}
    (hm : ofItems? items = some m) : m.payload.Held := by
  unfold ofItems? at hm
  split at hm
  next =>
    cases hm
    trivial
  next kind payload =>
    cases hm
    exact h payload (List.mem_cons_of_mem _ (List.mem_singleton_self payload))
  next => cases hm

theorem gives_scan : Gives scan fun m => m.payload.Held := by
  intro text m rest h
  unfold scan at h
  split at h
  next =>
    obtain ⟨⟨members, after⟩, hmembers, h⟩ := Option.bind_eq_some_iff.mp h
    obtain ⟨found, hfound, hpair⟩ := Option.bind_eq_some_iff.mp h
    cases hpair
    exact held_ofMembers? (gives_sequence (Json.Reader.gives_member gives_member) _ _ _ _ hmembers) hfound
  next =>
    obtain ⟨⟨items, after⟩, hitems, h⟩ := Option.bind_eq_some_iff.mp h
    obtain ⟨found, hfound, hpair⟩ := Option.bind_eq_some_iff.mp h
    cases hpair
    exact held_ofItems? (gives_sequence (gives_value _) _ _ _ _ hitems) hfound
  next => cases h

/-- The payload of a message that is read can be held. -/
theorem held_read? {text : String} {m : Message} (h : read? text = some m) : m.payload.Held := by
  obtain ⟨⟨found, rest⟩, hscan, h⟩ := Option.bind_eq_some_iff.mp h
  obtain ⟨-, hfound⟩ := Option.ite_none_right_eq_some.mp h
  cases hfound
  exact gives_scan _ _ _ hscan

end Message
end LiveTail
