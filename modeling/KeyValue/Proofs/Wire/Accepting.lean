import KeyValue.Proofs.Framing.Reading
import KeyValue.Proofs.Text.Decimal
import KeyValue.Proofs.Text.Utf8
import KeyValue.Wire.ReplyReader

/-!
# What a reader of replies accepts

A reader of replies succeeds exactly on bytes of a certain form, and what it leaves is what stands
behind them. For lines and payloads the form is simple (`readLine_eq_ok_iff`,
`readPayload_eq_ok_iff`). For replies it depends on the line in front: the line announces what else
belongs to the reply (`Reply.Announces`).

Everything about reading that follows is read off these forms. In particular, what is behind an
accepted reply does not matter (`readWithin_append`), and neither does how many levels of arrays a
reader is lent, if they are more than there are bytes (`readWithin_congr`).

## Main definitions

* `Reply.Announces`: The reply that a line announces, with the bytes behind it.

## Theorems

* `readLine_eq_ok_iff`: A line that is accepted.
* `readPayload_eq_ok_iff`: A payload that is accepted.
* `readWithin_eq_ok_iff`: A reply that is accepted.
* `readMany_append`, `readWithin_append`: Later bytes do not matter.
* `readWithin_congr`, `read_eq_readWithin`: Spare levels of arrays do not matter.
-/

namespace KeyValue

namespace Wire

/-- A line is accepted exactly if it is a text that is not empty, has no line feed, and ends as
    lines do. -/
theorem readLine_eq_ok_iff {input rest : Bytes} {line : String} :
    readLine input = (.ok line, rest) ↔
      line ≠ "" ∧ '\n' ∉ line.toList ∧ input = Text.bytes line ++ crlf ++ rest := by
  constructor
  · intro h
    unfold readLine at h
    by_cases hfeed : 10 ∈ input
    · rcases List.eq_append_cons_of_mem hfeed with ⟨content, after, hsplit, hfirst⟩
      rw [hsplit, span_line content after hfirst] at h
      split at h
      · simp at h
      · simp at h
      · rename_i before _ behind heq
        obtain ⟨rfl, hbehind⟩ := Prod.mk.inj heq
        obtain ⟨rfl, rfl⟩ := List.cons.inj hbehind
        split at h
        · rename_i hreturn
          -- The carriage return stands in front of the line feed.
          have hcontent : content = content.dropLast ++ [13] := by
            rcases List.eq_nil_or_concat content with rfl | ⟨front, last, rfl⟩
            · simp at hreturn
            · simp only [List.concat_eq_append, List.getLast?_concat, Option.some.injEq] at hreturn
              simp [hreturn]
          split at h
          · simp at h
          · rename_i hempty
            split at h
            · rename_i text htext
              obtain ⟨rfl, rfl⟩ : text = line ∧ after = rest := by simpa using h
              rw [Text.ofBytes?_eq_some_iff] at htext
              refine ⟨?_, ?_, ?_⟩
              · rintro rfl
                exact hempty (by rw [← htext]; rfl)
              · rw [← Text.lineFeed_mem_bytes, htext]
                exact fun hmem => hfirst (List.dropLast_subset _ hmem)
              · rw [hsplit, htext, hcontent]
                simp [crlf]
            · simp at h
        · simp at h
    · rw [span_of_notMem input hfeed] at h
      cases input <;> simp at h
  · rintro ⟨hne, hline, rfl⟩
    have hfirst : 10 ∉ Text.bytes line ++ [13] := by
      rw [List.mem_append, Text.lineFeed_mem_bytes, not_or]
      exact ⟨hline, by decide⟩
    have hsplit : Text.bytes line ++ crlf ++ rest = (Text.bytes line ++ [13]) ++ 10 :: rest := by
      simp [crlf]
    have hempty : Text.bytes line ≠ [] := fun h => hne (Text.bytes_injective h)
    unfold readLine
    rw [hsplit, span_line _ _ hfirst]
    split
    · simp_all
    · simp_all
    · rename_i heq
      obtain ⟨rfl, hbehind⟩ := Prod.mk.inj heq
      obtain ⟨rfl, rfl⟩ := List.cons.inj hbehind
      rw [if_pos (by simp), List.dropLast_concat]
      split
      · exact absurd (by assumption) hempty
      · rw [Text.ofBytes?_eq_some_iff.mpr rfl]

theorem readLine_shorter {input rest : Bytes} {line : String}
    (h : readLine input = (.ok line, rest)) : rest.length < input.length := by
  rw [readLine_eq_ok_iff] at h
  rw [h.2.2]
  simp only [List.length_append, crlf, List.length_cons, List.length_nil]
  omega

/-- A payload is accepted exactly if its line end is behind it. -/
theorem readPayload_eq_ok_iff {length : Nat} {input payload rest : Bytes} :
    readPayload length input = (.ok payload, rest) ↔
      payload.length = length ∧ input = payload ++ crlf ++ rest := by
  unfold readPayload readExactly
  constructor
  · intro h
    by_cases hlen : length + crlf.length ≤ input.length
    · simp only [if_pos hlen] at h
      split at h
      · rename_i hend
        obtain ⟨rfl, rfl⟩ := Prod.mk.inj h |>.imp_left Except.ok.inj
        refine ⟨?_, ?_⟩
        · simp only [List.take_take, List.length_take]
          omega
        · -- The payload and its line end are what was taken.
          have htaken := List.take_append_drop length (input.take (length + crlf.length))
          rw [hend] at htaken
          rw [htaken, List.take_append_drop]
      · simp at h
    · simp [if_neg hlen] at h
  · rintro ⟨rfl, rfl⟩
    have htake : (payload ++ crlf ++ rest).take (payload.length + crlf.length) =
        payload ++ crlf := by
      rw [← List.length_append, List.take_left]
    have hdrop : (payload ++ crlf ++ rest).drop (payload.length + crlf.length) = rest := by
      rw [← List.length_append, List.drop_left]
    rw [if_pos (by simp only [List.length_append]; omega), htake, hdrop]
    simp

/-- A length that fits is read back from its digits. -/
theorem replyLength_repr {n : Nat} (h : n ≤ Decimal.maxUInt64) :
    replyLength (Nat.repr n) = .ok (some n) := by
  have hne : Nat.repr n ≠ "-1" := by
    rcases Decimal.repr_eq_cons n with ⟨c, digits, hcons, hdigit⟩
    intro heq
    rw [heq] at hcons
    obtain rfl : '-' = c := (List.cons.inj hcons).1
    simp at hdigit
  rw [replyLength, if_neg hne, Decimal.count?_repr h]

variable {α : Type} {reader other : Reader α}

/-- A reader that does not add to its input. -/
def Consuming (reader : Reader α) : Prop := ∀ input, (reader input).2.length ≤ input.length

theorem readLine_consuming : Consuming readLine := by
  intro input
  unfold readLine
  by_cases hfeed : 10 ∈ input
  · rcases List.eq_append_cons_of_mem hfeed with ⟨content, after, hsplit, hfirst⟩
    have hafter : after.length ≤ input.length := by
      rw [hsplit, List.length_append, List.length_cons]
      omega
    rw [hsplit, span_line content after hfirst, ← hsplit]
    cases content with
    | nil => exact hafter
    | cons first content =>
        simp only
        split
        · split
          · exact hafter
          · split <;> exact hafter
        · exact hafter
  · rw [span_of_notMem input hfeed]
    cases input <;> exact Nat.zero_le _

theorem readPayload_consuming (length : Nat) : Consuming (readPayload length) := by
  intro input
  unfold readPayload readExactly
  by_cases hlength : length + crlf.length ≤ input.length
  · simp only [if_pos hlength]
    split <;> simp only [List.length_drop] <;> omega
  · simp only [if_neg hlength, List.length_nil]
    exact Nat.zero_le _

/-- Of several replies the first one is read first, and then the others. -/
theorem readMany_succ_eq_ok_iff {count : Nat} {input rest : Bytes} {values : List α} :
    readMany reader (count + 1) input = (.ok values, rest) ↔
      ∃ first middle later, reader input = (.ok first, middle) ∧
        readMany reader count middle = (.ok later, rest) ∧ values = first :: later := by
  simp only [readMany]
  rcases hfirst : reader input with ⟨e | first, middle⟩
  · simp
  · rcases hlater : readMany reader count middle with ⟨e | later, last⟩
    · simp [hlater]
    · simp only [hlater, Prod.mk.injEq, Except.ok.injEq]
      constructor
      · rintro ⟨rfl, rfl⟩
        exact ⟨first, middle, later, ⟨rfl, rfl⟩, hlater, rfl⟩
      · rintro ⟨_, _, later', ⟨rfl, rfl⟩, hlater', rfl⟩
        rw [hlater] at hlater'
        simpa using hlater'

/-- What is behind values that are accepted does not matter, if it does not matter behind one. -/
theorem readMany_append {more : Bytes}
    (h : ∀ {input rest value}, reader input = (.ok value, rest) →
      other (input ++ more) = (.ok value, rest ++ more)) {count : Nat} :
    ∀ {input rest : Bytes} {values : List α}, readMany reader count input = (.ok values, rest) →
      readMany other count (input ++ more) = (.ok values, rest ++ more) := by
  induction count with
  | zero =>
      intro input rest values hread
      obtain ⟨rfl, rfl⟩ : [] = values ∧ input = rest := by simpa [readMany] using hread
      rfl
  | succ count ih =>
      intro input rest values hread
      rw [readMany_succ_eq_ok_iff] at hread ⊢
      rcases hread with ⟨first, middle, later, hfirst, hlater, rfl⟩
      exact ⟨first, middle ++ more, later, h hfirst, ih hlater, rfl⟩

/-- What holds of each reply that a reader accepts holds of all that are read with it. -/
theorem readMany_all {p : α → Prop}
    (h : ∀ {input rest value}, reader input = (.ok value, rest) → p value) {count : Nat} :
    ∀ {input rest : Bytes} {values : List α}, readMany reader count input = (.ok values, rest) →
      values.length = count ∧ ∀ value ∈ values, p value := by
  induction count with
  | zero =>
      intro input rest values hread
      obtain ⟨rfl, -⟩ : [] = values ∧ input = rest := by simpa [readMany] using hread
      exact ⟨rfl, by simp⟩
  | succ count ih =>
      intro input rest values hread
      rw [readMany_succ_eq_ok_iff] at hread
      rcases hread with ⟨first, middle, later, hfirst, hlater, rfl⟩
      rcases ih hlater with ⟨hlength, hall⟩
      exact ⟨by rw [List.length_cons, hlength], List.forall_mem_cons.mpr ⟨h hfirst, hall⟩⟩

theorem readMany_consuming (h : Consuming reader) (count : Nat) :
    Consuming (readMany reader count) := by
  induction count with
  | zero => exact fun _ => Nat.le_refl _
  | succ count ih =>
      intro input
      have hfirst := h input
      simp only [readMany]
      rcases hread : reader input with ⟨e | first, middle⟩
      · rwa [hread] at hfirst
      · rw [hread] at hfirst
        have hlater := ih middle
        rcases hmany : readMany reader count middle with ⟨e | later, rest⟩
        · rw [hmany] at hlater
          simp only [hmany]
          exact Nat.le_trans hlater hfirst
        · rw [hmany] at hlater
          simp only [hmany]
          exact Nat.le_trans hlater hfirst

/-- Readers that agree on short inputs agree on as many values of a short input. -/
theorem readMany_congr (hreader : Consuming reader) {bound : Nat}
    (h : ∀ input : Bytes, input.length < bound → reader input = other input) (count : Nat) :
    ∀ input : Bytes, input.length < bound → readMany reader count input =
      readMany other count input := by
  induction count with
  | zero => exact fun _ _ => rfl
  | succ count ih =>
      intro input hlength
      have hmiddle := hreader input
      simp only [readMany, ← h input hlength]
      rcases hfirst : reader input with ⟨e | first, middle⟩
      · rfl
      · rw [hfirst] at hmiddle
        simp only [ih middle (Nat.lt_of_le_of_lt hmiddle hlength)]

end Wire

namespace Reply

open Wire

/-- The reply that a line announces by its mark and its text, with the bytes that are left behind
    the reply; `after` is what stands behind the line, and `item` reads the items of an array. -/
inductive Announces (item : Reader Reply) (after : Bytes) :
    Char → String → Reply → Bytes → Prop where
  | simple (text : String) : Announces item after '+' text (.simple text) after
  | error (text : String) : Announces item after '-' text (.error text) after
  | integer {text : String} {value : Int64} (h : Decimal.int64? text = some value) :
      Announces item after ':' text (.integer value) after
  | null {text : String} (h : replyLength text = .ok none) :
      Announces item after '$' text .null after
  | bulk {text : String} {length : Nat} {payload rest : Bytes}
      (h : replyLength text = .ok (some length)) (hfits : length ≤ maxBulkLength)
      (hread : readPayload length after = (.ok payload, rest)) :
      Announces item after '$' text (.bulk payload) rest
  | nullArray {text : String} (h : replyLength text = .ok none) :
      Announces item after '*' text .nullArray after
  | array {text : String} {count : Nat} {items : List Reply} {rest : Bytes}
      (h : replyLength text = .ok (some count)) (hfits : count ≤ maxArrayLength)
      (hread : readMany item count after = (.ok items, rest)) :
      Announces item after '*' text (.array items) rest

/-- A reply is accepted exactly if its line announces it. -/
theorem readWithin_eq_ok_iff {depth : Nat} {input rest : Bytes} {reply : Reply} :
    readWithin (depth + 1) input = (.ok reply, rest) ↔
      ∃ mark body after, readLine input = (.ok (String.ofList (mark :: body)), after) ∧
        Announces (readWithin depth) after mark (String.ofList body) reply rest := by
  constructor
  · intro h
    simp only [readWithin] at h
    rcases hline : readLine input with ⟨e | line, after⟩
    · simp [hline] at h
    · simp only [hline] at h
      split at h
      · simp at h
      · rename_i mark body hchars
        have hspelled : line = String.ofList (mark :: body) := by
          rw [← hchars, String.ofList_toList]
        refine ⟨mark, body, after, by rw [hspelled], ?_⟩
        split at h
        · simp at h
        · -- One case for each mark, and in it for each way to go wrong.
          split at h
          · obtain ⟨rfl, rfl⟩ := Prod.mk.inj h |>.imp_left Except.ok.inj
            exact .simple _
          · obtain ⟨rfl, rfl⟩ := Prod.mk.inj h |>.imp_left Except.ok.inj
            exact .error _
          · split at h
            · obtain ⟨rfl, rfl⟩ := Prod.mk.inj h |>.imp_left Except.ok.inj
              exact .integer (by assumption)
            · simp at h
          · split at h
            · simp at h
            · obtain ⟨rfl, rfl⟩ := Prod.mk.inj h |>.imp_left Except.ok.inj
              exact .null (by assumption)
            · split at h
              · simp at h
              · rename_i hfits
                split at h
                · simp at h
                · rename_i hread
                  obtain ⟨rfl, rfl⟩ := Prod.mk.inj h |>.imp_left Except.ok.inj
                  exact .bulk (by assumption) (by omega) hread
          · split at h
            · simp at h
            · obtain ⟨rfl, rfl⟩ := Prod.mk.inj h |>.imp_left Except.ok.inj
              exact .nullArray (by assumption)
            · split at h
              · simp at h
              · rename_i hfits
                split at h
                · simp at h
                · rename_i hread
                  obtain ⟨rfl, rfl⟩ := Prod.mk.inj h |>.imp_left Except.ok.inj
                  exact .array (by assumption) (by omega) hread
          · simp at h
  · rintro ⟨mark, body, after, hline, hannounces⟩
    have hsize : mark.utf8Size = 1 := by cases hannounces <;> rfl
    simp only [readWithin, hline, String.toList_ofList, ne_eq, hsize, not_true, if_false]
    cases hannounces with
    | simple text => rfl
    | error text => rfl
    | integer h => simp only [h]
    | null h => simp only [h]
    | bulk h hfits hread =>
        simp only [h, gt_iff_lt, Nat.not_lt.mpr hfits, if_false, hread]
    | nullArray h => simp only [h]
    | array h hfits hread =>
        simp only [h, gt_iff_lt, Nat.not_lt.mpr hfits, if_false, hread]

/-- What is behind a reply that is accepted does not matter, and neither do more levels. -/
theorem readWithin_append (more : Bytes) {depth : Nat} :
    ∀ {depth' : Nat} {input rest : Bytes} {reply : Reply}, depth ≤ depth' →
      readWithin depth input = (.ok reply, rest) →
      readWithin depth' (input ++ more) = (.ok reply, rest ++ more) := by
  induction depth with
  | zero => exact fun _ h => by simp [readWithin] at h
  | succ depth ih =>
      intro depth' input rest reply hle h
      obtain ⟨level, rfl⟩ : ∃ level, depth' = level + 1 := ⟨depth' - 1, by omega⟩
      rw [readWithin_eq_ok_iff] at h ⊢
      rcases h with ⟨mark, body, after, hline, hannounces⟩
      refine ⟨mark, body, after ++ more, ?_, ?_⟩
      · rw [readLine_eq_ok_iff] at hline ⊢
        exact ⟨hline.1, hline.2.1, by rw [hline.2.2, List.append_assoc _ after]⟩
      cases hannounces with
      | simple => exact .simple _
      | error => exact .error _
      | integer h => exact .integer h
      | null h => exact .null h
      | bulk h hfits hread =>
          refine .bulk h hfits ?_
          rw [readPayload_eq_ok_iff] at hread ⊢
          exact ⟨hread.1, by rw [hread.2, List.append_assoc _ rest]⟩
      | nullArray h => exact .nullArray h
      | array h hfits hread => exact .array h hfits (readMany_append (ih (by omega)) hread)

theorem readWithin_consuming (depth : Nat) : Consuming (readWithin depth) := by
  induction depth with
  | zero => exact fun _ => Nat.le_refl _
  | succ depth ih =>
      intro input
      have hline := readLine_consuming input
      simp only [readWithin]
      rcases hread : readLine input with ⟨e | line, after⟩
      · rwa [hread] at hline
      · rw [hread] at hline
        -- Only payloads and items take more than the line.
        have hpayload := fun length => readPayload_consuming length after
        have hitems := fun count => readMany_consuming ih count after
        simp only
        split
        · exact hline
        · split
          · exact hline
          · split
            · exact hline
            · exact hline
            · split <;> exact hline
            · split
              · exact hline
              · exact hline
              · rename_i length _
                have hpayload := hpayload length
                split
                · exact hline
                · split <;> (rename_i hread; rw [hread] at hpayload; exact hpayload.trans hline)
            · split
              · exact hline
              · exact hline
              · rename_i count _
                have hitems := hitems count
                split
                · exact hline
                · split <;> (rename_i hread; rw [hread] at hitems; exact hitems.trans hline)
            · exact hline

/-- A reader that is lent more levels than there are bytes has enough of them. -/
theorem readWithin_congr {depth : Nat} :
    ∀ {depth' : Nat} {input : Bytes}, input.length < depth → input.length < depth' →
      readWithin depth input = readWithin depth' input := by
  induction depth with
  | zero => exact fun h => absurd h (Nat.not_lt_zero _)
  | succ depth ih =>
      intro depth' input hlength hlength'
      obtain ⟨level, rfl⟩ : ∃ level, depth' = level + 1 := ⟨depth' - 1, by omega⟩
      simp only [readWithin]
      rcases hline : readLine input with ⟨e | line, after⟩
      · rfl
      · -- The line took a byte, so the items have fewer than the reply.
        have hshorter := readLine_shorter hline
        have hitems : ∀ count, readMany (readWithin depth) count after =
            readMany (readWithin level) count after := fun count =>
          readMany_congr (readWithin_consuming depth)
            (fun input h => ih (by omega) (by omega : input.length < level)) count after
            (by omega : after.length < input.length)
        simp only [hitems]

/-- Reading a reply reads arrays of any depth: with more levels to spend it reads the same. -/
theorem read_eq_readWithin {depth : Nat} {input : Bytes} (h : input.length < depth) :
    read input = readWithin depth input :=
  readWithin_congr (Nat.lt_succ_self _) h

end Reply

end KeyValue
