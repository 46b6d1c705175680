import LiveTail.Proofs.Number.Decimal
import LiveTail.Proofs.Record.Sorted
import LiveTail.Proofs.Text.Blank
import LiveTail.Proofs.Time.Seconds

/-! Maps that say the same in other words.

A nil under a reserved key is as good as no entry. A whole number is as good as its decimal text
with white space around it (`Interchangeable`), and as a time it is an exact number of seconds.
Each of these changes one entry, and a record is read from what stands under its keys, so that
is a change of one key (`ofList_middle`). -/
namespace LiveTail.LogRecord
open MessagePack Number

/-! ### One entry of a map -/

/-- An entry in the middle is as good as one at the end, if its key does not come again. -/
theorem ofList_middle {front back : List (String × Value)} {key : String}
    (h : key ∉ back.map Prod.fst) (v : Value) :
    Dictionary.ofList (front ++ (key, v) :: back) =
      (Dictionary.ofList (front ++ back)).put key v := by
  apply Dictionary.ext
  intro k
  rw [Dictionary.get?_put, Dictionary.get?_ofList, Dictionary.get?_ofList]
  show last? (front ++ (key, v) :: back) k = if k = key then some v else last? (front ++ back) k
  rw [last?_append, last?_append, last?_cons]
  by_cases hk : k = key
  · subst hk
    rw [last?_eq_none h, if_pos rfl, if_pos rfl]
    rfl
  · rw [if_neg hk, if_neg hk, Option.or_none]

theorem get?_ofList_eq_none {entries : List (String × Value)} {key : String}
    (h : key ∉ entries.map Prod.fst) : (Dictionary.ofList entries).get? key = none := by
  rw [Dictionary.get?_ofList]
  exact last?_eq_none h

section Put
variable {fields : Fields} {key : String} {v w : Value}

theorem present?_put_self (h : v ≠ .nil) : present? (fields.put key v) key = some v := by
  apply present?_of_get?
  · rw [Dictionary.get?_put, if_pos rfl]
  · exact fun heq => h (Option.some.inj heq)

theorem present?_put_of_ne {k : String} (h : k ≠ key) :
    present? (fields.put key v) k = present? fields k := by
  apply present?_congr
  rw [Dictionary.get?_put, if_neg h]

theorem present?_put_put {k : String} (h : k ≠ key) :
    present? (fields.put key v) k = present? (fields.put key w) k := by
  rw [present?_put_of_ne h, present?_put_of_ne h]

theorem present?_put_nil (h : fields.get? key = none) (k : String) :
    present? (fields.put key .nil) k = present? fields k := by
  by_cases hk : k = key
  · rw [hk, present?, present?, Dictionary.get?_put, if_pos rfl, h]
  · exact present?_put_of_ne hk

theorem get?_put_reserved (hkey : isReserved key = true) {k : String}
    (hk : isReserved k = false) : (fields.put key v).get? k = fields.get? k := by
  rw [Dictionary.get?_put, if_neg]
  rintro rfl
  rw [hk] at hkey
  cases hkey

end Put

theorem ofFields_congr {a b : Fields} (hown : own a = own b)
    (hextra : ∀ key, isReserved key = false → a.get? key = b.get? key) :
    ofFields a = ofFields b := by
  rw [ofFields_eq, ofFields_eq, hown]
  congr 1
  funext r
  exact withExtra_congr r hextra

theorem ofFields_put_nil {fields : Fields} {key : String} (hkey : isReserved key = true)
    (h : fields.get? key = none) : ofFields (fields.put key .nil) = ofFields fields :=
  ofFields_congr (own_of_present? fun k _ => present?_put_nil h k)
    fun _ hk => get?_put_reserved hkey hk

/-! ### Numbers -/

/-- The keys under which a number is read, whole or in seconds. -/
def numericKeys : List String := ["lineno", "process", "created"]

/-- Values that are read as the same number. -/
structure Interchangeable (v w : Value) : Prop where
  left_ne : v ≠ .nil
  right_ne : w ≠ .nil
  number : numberOf? v = numberOf? w
  seconds : secondsOf "created" v = secondsOf "created" w

theorem numberField_put {fields : Fields} {v w : Value} (h : Interchangeable v w)
    (key k : String) : numberField (fields.put key v) k = numberField (fields.put key w) k := by
  by_cases hk : k = key
  · subst hk
    rw [numberField, numberField, present?_put_self h.left_ne, present?_put_self h.right_ne]
    simp only [h.number]
  · exact numberField_congr (present?_put_put hk)

theorem timeField_put {fields : Fields} {v w : Value} (h : Interchangeable v w) {key : String}
    (hkey : key ≠ "time") : timeField (fields.put key v) = timeField (fields.put key w) := by
  rw [timeField, timeField, present?_put_put (w := w) hkey.symm]
  by_cases hcreated : "created" = key
  · rw [← hcreated, present?_put_self h.left_ne, present?_put_self h.right_ne]
    simp only [h.seconds]
  · rw [present?_put_put (w := w) hcreated]

theorem textField_put (fields : Fields) (v w : Value) {key : String} (hkey : key ∈ numericKeys)
    {k : String} (hk : k ∈ textKeys) :
    textField (fields.put key v) k = textField (fields.put key w) k := by
  have hapart : ∀ k ∈ textKeys, ∀ key ∈ numericKeys, k ≠ key := by decide
  exact textField_congr (present?_put_put (hapart k hk key hkey))

theorem isReserved_of_numeric {key : String} (h : key ∈ numericKeys) : isReserved key = true := by
  have hall : ∀ key ∈ numericKeys, isReserved key = true := by decide
  exact hall key h

theorem get?_put_put (fields : Fields) (v w : Value) {key : String} (hkey : key ∈ numericKeys)
    {k : String} (hk : isReserved k = false) :
    (fields.put key v).get? k = (fields.put key w).get? k := by
  rw [get?_put_reserved (isReserved_of_numeric hkey) hk,
    get?_put_reserved (isReserved_of_numeric hkey) hk]

theorem ofFields_put {v w : Value} (h : Interchangeable v w) (fields : Fields) {key : String}
    (hkey : key ∈ numericKeys) : ofFields (fields.put key v) = ofFields (fields.put key w) := by
  have htime : key ≠ "time" := by
    rintro rfl
    exact absurd hkey (by decide)
  refine ofFields_congr (own_congr ?_ ?_ (timeField_put h htime)) ?_
  · exact fun k hk => textField_put fields v w hkey hk
  · exact fun k _ => numberField_put h key k
  · exact fun k hk => get?_put_put fields v w hkey hk

/-- What white space there is around a number does not count. -/
theorem trim_toString {left right : String} (hleft : ∀ c ∈ left.toList, Text.isBlank c)
    (hright : ∀ c ∈ right.toList, Text.isBlank c) (n : Int) :
    Text.trim (left ++ toString n ++ right).toList = (toString n).toList := by
  have hdigits : ∀ c ∈ Numeral.digits n.natAbs, Text.isBlank c = false :=
    fun c hc => Text.isBlank_of_isDigit (Numeral.isDigit_of_mem_digits hc)
  have htext : ∀ c ∈ (toString n).toList, Text.isBlank c = false := by
    rw [Numeral.toList_toString]
    split
    · rintro c hc
      rcases List.mem_cons.mp hc with rfl | hc
      · decide
      · exact hdigits c hc
    · exact hdigits
  have hne : (toString n).toList ≠ [] := by
    rw [Numeral.toList_toString]
    split
    · exact List.cons_ne_nil _ _
    · exact Numeral.digits_ne_nil _
  rw [String.toList_append, String.toList_append]
  apply Text.trim_append hleft hright hne
  · exact fun c hc => htext c (List.mem_of_head? hc)
  · exact fun c hc => htext c (List.mem_of_getLast? hc)

theorem interchangeable_toString {left right : String} (hleft : ∀ c ∈ left.toList, Text.isBlank c)
    (hright : ∀ c ∈ right.toList, Text.isBlank c) {n : Int} (h : n.natAbs < 2 ^ 64) :
    Interchangeable (.str (left ++ toString n ++ right)) (.int n) := by
  have htrim := trim_toString hleft hright n
  constructor
  case left_ne => nofun
  case right_ne => nofun
  case number =>
    show Numeral.unsigned? numberLimit (Text.trim _) = _
    rw [htrim, Numeral.unsigned?_toString]
    rfl
  case seconds =>
    have hlimit : n.natAbs < 10 ^ 20 := Nat.lt_trans h (by decide)
    simp only [secondsOf, htrim, Numeral.float?_toString hlimit]

/-! ### Seconds -/

/-- Where only the time is another, only the time comes out another. -/
theorem ofFields_of_other {a b : Fields} {r : LogRecord}
    (htexts : ∀ key ∈ textKeys, textField a key = textField b key)
    (hnumbers : ∀ key ∈ numberKeys, numberField a key = numberField b key)
    (hextra : ∀ key, isReserved key = false → a.get? key = b.get? key)
    (h : ofFields b = .ok r) :
    ofFields a = (timeField a).map fun time => { r with time } := by
  unfold ofFields at h
  obtain ⟨level, hlevel, h⟩ := of_bind h
  obtain ⟨message, hmessage, h⟩ := of_bind h
  obtain ⟨time, -, h⟩ := of_bind h
  obtain ⟨diagnostics, hdiagnostics, h⟩ := of_bind h
  obtain rfl := Except.ok.inj h
  rw [ofFields, levelField_congr htexts, messageField_congr htexts,
    diagnosticsFields_congr htexts hnumbers, hlevel, hmessage, hdiagnostics]
  cases timeField a with
  | error e => rfl
  | ok t =>
    show Except.ok (((new level message t).withDiagnostics diagnostics).withExtra a) = _
    rw [withExtra_congr _ hextra]
    rfl

theorem timeField_created {fields : Fields} (h : fields.get? "time" = none) {n : Int}
    (hn : n.natAbs < 2 ^ 64) :
    timeField (fields.put "created" (.int n)) =
      if Time.Instant.firstSecond ≤ n ∧ n ≤ Time.Instant.lastSecond then .ok ⟨n, 0⟩
      else .error (.badTime (Shortest.plain (Binary.ofInt n))) := by
  have htime : present? (fields.put "created" (.int n)) "time" = none := by
    apply present?_of_get?
    · rw [Dictionary.get?_put, if_neg (by decide), h]
    · simp
  have hint : Value.int n ≠ .nil := by simp
  rw [timeField, htime, present?_put_self hint]
  show instantOf (Binary.ofInt n) = _
  rw [instantOf, Time.Instant.ofFloat?_ofInt hn]
  by_cases hrange : Time.Instant.firstSecond ≤ n ∧ n ≤ Time.Instant.lastSecond
  · rw [if_pos hrange, if_pos hrange]
  · rw [if_neg hrange, if_neg hrange]

theorem ofFields_created {fields : Fields} (h : fields.get? "time" = none) {n : Int}
    (hn : n.natAbs < 2 ^ 64) {other : Value} {r : LogRecord}
    (hr : ofFields (fields.put "created" other) = .ok r) :
    ofFields (fields.put "created" (.int n)) =
      if Time.Instant.firstSecond ≤ n ∧ n ≤ Time.Instant.lastSecond then
        .ok { r with time := ⟨n, 0⟩ }
      else .error (.badTime (Shortest.plain (Binary.ofInt n))) := by
  have hkey : "created" ∈ numericKeys := by decide
  have hapart : ∀ key ∈ numberKeys, key ≠ "created" := by decide
  rw [ofFields_of_other ?_ ?_ ?_ hr, timeField_created h hn]
  · split <;> rfl
  · exact fun k hk => textField_put fields _ other hkey hk
  · exact fun k hk => numberField_congr (present?_put_put (hapart k hk))
  · exact fun k hk => get?_put_put fields _ other hkey hk

/-! ### All of a map -/

/-- What does not depend on how the entries of a map are spelled. -/
structure Respelled (entries : List (String × Value)) : Prop where
  nil : ∀ front back key, entries = front ++ (key, .nil) :: back → isReserved key = true →
    ofValue (keyed (front ++ back)) = ofValue (keyed entries)
  number : ∀ front back key (n : Int) (left right : String),
    entries = front ++ (key, .int n) :: back → key ∈ numericKeys → -2 ^ 63 ≤ n → n < 2 ^ 64 →
    (∀ c ∈ left.toList, Text.isBlank c) → (∀ c ∈ right.toList, Text.isBlank c) →
    ofValue (keyed (front ++ (key, .str (left ++ toString n ++ right)) :: back)) =
      ofValue (keyed entries)
  /-- Where some value under `created` would give a record, a whole number gives the same one
  with exactly its own time, or is refused. -/
  instant : ∀ front back (n : Int) other r, entries = front ++ ("created", .int n) :: back →
    "time" ∉ entries.map Prod.fst → -2 ^ 63 ≤ n → n < 2 ^ 64 →
    ofValue (keyed (front ++ ("created", other) :: back)) = .ok r →
    ofValue (keyed entries) =
      if Time.Instant.firstSecond ≤ n ∧ n ≤ Time.Instant.lastSecond then
        .ok { r with time := ⟨n, 0⟩ }
      else .error (.badTime (Shortest.plain (Binary.ofInt n)))

theorem not_mem_of_nodup {front back : List (String × Value)} {key : String} {v : Value}
    (h : ((front ++ (key, v) :: back).map Prod.fst).Nodup) :
    key ∉ (front ++ back).map Prod.fst ∧ key ∉ back.map Prod.fst := by
  rw [List.map_append, List.map_cons, List.nodup_middle, List.nodup_cons, ← List.map_append] at h
  refine ⟨h.1, fun hback => h.1 ?_⟩
  rw [List.map_append]
  exact List.mem_append_right _ hback

/-- **How the entries of a map are spelled does not count.** -/
theorem respelled {entries : List (String × Value)} (h : (entries.map Prod.fst).Nodup) :
    Respelled entries := by
  constructor
  case nil =>
    rintro front back key rfl hkey
    obtain ⟨hothers, hback⟩ := not_mem_of_nodup h
    rw [ofValue_keyed, ofValue_keyed, ofList_middle hback,
      ofFields_put_nil hkey (get?_ofList_eq_none hothers)]
  case number =>
    rintro front back key n left right rfl hkey hlow hhigh hleft hright
    obtain ⟨-, hback⟩ := not_mem_of_nodup h
    have hn : n.natAbs < 2 ^ 64 := by omega
    rw [ofValue_keyed, ofValue_keyed, ofList_middle hback, ofList_middle hback,
      ofFields_put (interchangeable_toString hleft hright hn) _ hkey]
  case instant =>
    rintro front back n other r rfl htime hlow hhigh hr
    obtain ⟨-, hback⟩ := not_mem_of_nodup h
    have hn : n.natAbs < 2 ^ 64 := by omega
    have hothers : "time" ∉ (front ++ back).map Prod.fst := fun hmem => htime <| by
      rw [List.map_append, List.mem_append] at hmem ⊢
      exact hmem.imp_right (List.mem_cons_of_mem _)
    rw [ofValue_keyed, ofList_middle hback] at hr ⊢
    exact ofFields_created (get?_ofList_eq_none hothers) hn hr

/-- A second of its own, without the nil and between white space. -/
theorem respelled_created :
    let front : List (String × Value) := [("levelname", .str "INFO")]
    let back : List (String × Value) := [("created", .int 1700000000), ("msg", .str "a")]
    let entries := front ++ ("lineno", .nil) :: back
    (entries.map Prod.fst).Nodup ∧
      ofValue (keyed (front ++ back)) = ofValue (keyed entries) ∧
      ofValue (keyed (front ++ ("lineno", .nil) ::
        [("created", .str ("\t" ++ toString (1700000000 : Int) ++ "\u3000")), ("msg", .str "a")])) =
        ofValue (keyed entries) ∧
      ∃ r, ofValue (keyed entries) = .ok r ∧ r.time = ⟨1700000000, 0⟩ := by
  intro front back entries
  have hnodup : (entries.map Prod.fst).Nodup := by decide
  have hspelled := respelled hnodup
  refine ⟨hnodup, hspelled.nil front back "lineno" rfl rfl, ?_, ?_⟩
  · have hleft : ∀ c ∈ "\t".toList, Text.isBlank c := List.all_eq_true.mp (by decide)
    have hright : ∀ c ∈ "\u3000".toList, Text.isBlank c := List.all_eq_true.mp (by decide)
    exact hspelled.number (front ++ [("lineno", .nil)]) [("msg", .str "a")] "created" 1700000000
      "\t" "\u3000" rfl (by decide) (by decide) (by decide) hleft hright
  · let others : List (String × Value) := front ++ [("lineno", .nil)] ++
      ("created", .float64 0x3FF8000000000000) :: [("msg", .str "a")]
    have hread : (ofValue (keyed others)).isOk = true := by decide +kernel
    cases hr : ofValue (keyed others) with
    | error e =>
      rw [hr] at hread
      cases hread
    | ok r =>
      have hinstant := hspelled.instant (front ++ [("lineno", .nil)]) [("msg", .str "a")]
        1700000000 (.float64 0x3FF8000000000000) r rfl (by decide) (by decide) (by decide) hr
      rw [if_pos (by decide)] at hinstant
      exact ⟨_, hinstant, rfl⟩

end LiveTail.LogRecord
