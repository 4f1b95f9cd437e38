import KeyValue.Proofs.Replication.Handshaking

/-!
# What a handshake accepts

What a master may say to a replica has a grammar: an answer to each command, each of them a line,
then the line that announces the resync, and then the snapshot, which has a length in front and no
line end behind (`Answered`, `Resync.Announced`). The grammar is about bytes alone and does not
mention how they are read.

The handshake accepts exactly this language. Every reader of the handshake succeeds exactly on the
bytes that its part of the grammar describes, and leaves what is behind them, so the snapshot is
never read too far. The replica sends the next command only when the answers so far have matched:
how many commands it sent is one more than how many answers match.

## Main definitions

* `Handshake.Answered`: The answers that some commands must get.
* `Handshake.Resync.Announced`: The bytes that announce a resync.
* `Handshake.commands`: The commands of a replica, in order.

## Theorems

* `Reply.read_simple_iff`: The bytes that are read as a line of text.
* `check_eq_ok_iff`, `readResync_eq_ok_iff`: What the readers of the handshake accept.
* `runFrom_eq_ok_iff`, `runFrom_sent`: The handshake from some exchanges on.
* `run_eq_ok_iff_and_sent`: The handshake as a whole.
-/

namespace KeyValue

open Wire

/-- A reader takes bytes for a line of text exactly if they are the wire form of this line. -/
theorem Reply.read_simple_iff {input rest : Bytes} {text : String} :
    Reply.read input = (.ok (.simple text), rest) ↔
      '\n' ∉ text.toList ∧ input = (Reply.simple text).encode ++ rest := by
  constructor
  · intro hread
    rw [Reply.read, Reply.readWithin_eq_ok_iff] at hread
    rcases hread with ⟨mark, body, after, hline, hannounces⟩
    cases hannounces with
    | simple =>
        refine ⟨Reply.lineFeed_notMem_of_readLine hline, ?_⟩
        rw [readLine_eq_ok_iff] at hline
        rw [Reply.encode_simple, Reply.line, String.toList_ofList]
        exact hline.2.2
  · rintro ⟨htext, rfl⟩
    exact @Reply.read_encode (.simple text) ⟨trivial, htext⟩ rest

namespace Handshake

/-- The answers that must have these texts, in any letter case, with `rest` behind them. -/
inductive Answered : List String → Bytes → Bytes → Prop
  | nil {rest : Bytes} : Answered [] rest rest
  | cons {expected text : String} {later : List String} {input rest : Bytes}
      (hline : '\n' ∉ text.toList) (hword : Text.sameWord text expected = true)
      (hlater : Answered later input rest) :
      Answered (expected :: later) ((Reply.simple text).encode ++ input) rest

/-- The bytes that announce a resync, with `rest` behind them: a line with the tag, the id and the
    offset, a line with the length of the snapshot, and the snapshot. -/
inductive Resync.Announced : Resync → Bytes → Bytes → Prop
  | intro {text tag id offset length : String} {more : List String} {n : UInt64}
      {snapshot rest : Bytes}
      (hline : '\n' ∉ text.toList)
      (hwords : Text.words text = tag :: id :: offset :: more)
      (htag : Text.sameWord tag "FULLRESYNC" = true)
      (hoffset : Decimal.uint64? offset = some n)
      (hlength : Decimal.count? length = some snapshot.length)
      (hfits : snapshot.length ≤ maxBulkLength) :
      Announced ⟨id, n, snapshot⟩
        ((Reply.simple text).encode ++ (Reply.line '$' length ++ (snapshot ++ rest))) rest

/-- The commands of a replica that listens on `port`. -/
def commands (port : UInt16) : List (List String) :=
  [["PING"], ["REPLCONF", "listening-port", Nat.repr port.toNat], ["REPLCONF", "capa", "psync2"],
    ["PSYNC", "?", "-1"]]

section Readers

variable {input rest : Bytes}

theorem check_simple (exchange : Exchange) {text : String} (hline : '\n' ∉ text.toList)
    (hword : Text.sameWord text exchange.expected = true) (rest : Bytes) :
    exchange.check ((Reply.simple text).encode ++ rest) = (.ok (), rest) := by
  have hread : Reply.read ((Reply.simple text).encode ++ rest) = (.ok (.simple text), rest) :=
    Reply.read_simple_iff.mpr ⟨hline, rfl⟩
  simp only [Exchange.check, hread, hword, if_true]

/-- The answer to a command is accepted exactly if it is a line with the expected text. -/
theorem check_eq_ok_iff (exchange : Exchange) :
    exchange.check input = (.ok (), rest) ↔
      ∃ text : String, '\n' ∉ text.toList ∧ Text.sameWord text exchange.expected = true ∧
        input = (Reply.simple text).encode ++ rest := by
  constructor
  · intro hcheck
    simp only [Exchange.check] at hcheck
    rcases hread : Reply.read input with ⟨e | reply, after⟩
    · simp [hread] at hcheck
    cases reply with
    | simple text =>
        simp only [hread] at hcheck
        split at hcheck
        · rename_i hword
          obtain rfl : after = rest := (Prod.mk.inj hcheck).2
          rcases Reply.read_simple_iff.mp hread with ⟨hline, hinput⟩
          exact ⟨text, hline, hword, hinput⟩
        · simp at hcheck
    | _ => simp [hread] at hcheck
  · rintro ⟨text, hline, hword, rfl⟩
    exact check_simple exchange hline hword rest

/-- The announcements that are accepted, and what they announce. -/
theorem announcement_eq_ok_iff {reply : Reply} {id : String} {n : UInt64} :
    announcement reply = .ok (id, n) ↔
      ∃ (text tag offset : String) (more : List String), reply = .simple text ∧
        Text.words text = tag :: id :: offset :: more ∧ Text.sameWord tag "FULLRESYNC" = true ∧
        Decimal.uint64? offset = some n := by
  constructor
  · intro h
    cases reply with
    | simple text =>
        simp only [announcement] at h
        split at h
        · rename_i tag found offset more hwords
          split at h
          · rename_i htag
            split at h
            · rename_i value hoffset
              obtain ⟨rfl, rfl⟩ := Prod.mk.inj (Except.ok.inj h)
              exact ⟨text, tag, offset, more, rfl, hwords, htag, hoffset⟩
            · simp at h
          · simp at h
        · simp at h
    | _ => simp [announcement] at h
  · rintro ⟨text, tag, offset, more, rfl, hwords, htag, hoffset⟩
    simp only [announcement, hwords, htag, if_true, hoffset]

/-- The headers of snapshots that are accepted, and the lengths they tell. -/
theorem snapshotLength_eq_ok_iff {header : String} {n : Nat} :
    snapshotLength header = .ok n ↔
      ∃ length : String, header = String.ofList ('$' :: length.toList) ∧
        Decimal.count? length = some n ∧ n ≤ maxBulkLength := by
  constructor
  · intro h
    simp only [snapshotLength] at h
    split at h
    · rename_i digits hheader
      split at h
      · simp at h
      · rename_i found hdigits
        split at h
        · simp at h
        · rename_i hfits
          obtain rfl := Except.ok.inj h
          refine ⟨String.ofList digits, ?_, ?_, Nat.not_lt.mp hfits⟩
          · rw [String.toList_ofList, ← hheader, String.ofList_toList]
          · rw [Decimal.count?, String.toList_ofList, hdigits]
    · simp at h
  · rintro ⟨length, rfl, hlength, hfits⟩
    rw [Decimal.count?] at hlength
    simp only [snapshotLength, String.toList_ofList, hlength, gt_iff_lt, Nat.not_lt.mpr hfits,
      if_false]

-- The length is spelled with digits, so its line holds no other line.
theorem lineFeed_notMem_of_count {length : String} {n : Nat}
    (h : Decimal.count? length = some n) : '\n' ∉ length.toList := by
  intro hmem
  simpa using Decimal.isDigit_of_bounded? h hmem

/-- A snapshot is a line with its length and then as many bytes, and nothing behind them is
    read. -/
theorem readSnapshot_eq_ok_iff {snapshot : Bytes} :
    readSnapshot input = (.ok snapshot, rest) ↔
      ∃ length : String, Decimal.count? length = some snapshot.length ∧
        snapshot.length ≤ maxBulkLength ∧
        input = Reply.line '$' length ++ (snapshot ++ rest) := by
  constructor
  · intro h
    simp only [readSnapshot] at h
    rcases hline : readLine input with ⟨e | header, after⟩
    · simp [hline] at h
    rcases hheader : snapshotLength header with e | n
    · simp [hline, hheader] at h
    simp only [hline, hheader] at h
    split at h
    · rename_i hwhole
      obtain ⟨hsnapshot, rfl⟩ := Prod.mk.inj h
      obtain rfl := Except.ok.inj hsnapshot
      have hlength : (after.take n).length = n := List.length_take_of_le hwhole
      rcases snapshotLength_eq_ok_iff.mp hheader with ⟨length, rfl, hcount, hfits⟩
      rw [readLine_eq_ok_iff] at hline
      rw [hlength, List.take_append_drop]
      exact ⟨length, hcount, hfits, hline.2.2⟩
    · simp at h
  · rintro ⟨length, hcount, hfits, rfl⟩
    have hline : readLine (Reply.line '$' length ++ (snapshot ++ rest)) =
        (.ok (String.ofList ('$' :: length.toList)), snapshot ++ rest) := by
      rw [readLine_eq_ok_iff]
      refine ⟨?_, ?_, rfl⟩
      · rw [← String.toList_inj.ne, String.toList_ofList]
        exact List.cons_ne_nil _ _
      · rw [String.toList_ofList, List.mem_cons, not_or]
        exact ⟨by decide, lineFeed_notMem_of_count hcount⟩
    have hheader := snapshotLength_eq_ok_iff.mpr ⟨length, rfl, hcount, hfits⟩
    simp only [readSnapshot, hline, hheader, List.length_append, Nat.le_add_right, if_true,
      List.take_left, List.drop_left]

/-- A resync is read exactly from the bytes that announce it. -/
theorem readResync_eq_ok_iff {resync : Resync} :
    readResync input = (.ok resync, rest) ↔ resync.Announced input rest := by
  constructor
  · intro h
    simp only [readResync] at h
    rcases hread : Reply.read input with ⟨e | reply, after⟩
    · simp [hread] at h
    rcases hannounced : announcement reply with e | ⟨id, n⟩
    · simp [hread, hannounced] at h
    rcases hsnapshot : readSnapshot after with ⟨e | snapshot, left⟩
    · simp [hread, hannounced, hsnapshot] at h
    simp only [hread, hannounced, hsnapshot] at h
    obtain ⟨hresync, rfl⟩ := Prod.mk.inj h
    obtain rfl := Except.ok.inj hresync
    rcases announcement_eq_ok_iff.mp hannounced with
      ⟨text, tag, offset, more, rfl, hwords, htag, hoffset⟩
    rcases Reply.read_simple_iff.mp hread with ⟨hline, rfl⟩
    rcases readSnapshot_eq_ok_iff.mp hsnapshot with ⟨length, hlength, hfits, rfl⟩
    exact .intro hline hwords htag hoffset hlength hfits
  · rintro ⟨hline, hwords, htag, hoffset, hlength, hfits⟩
    rename_i text _ _ _ length _ n snapshot
    have hread : Reply.read ((Reply.simple text).encode ++
        (Reply.line '$' length ++ (snapshot ++ rest))) =
          (.ok (.simple text), Reply.line '$' length ++ (snapshot ++ rest)) :=
      Reply.read_simple_iff.mpr ⟨hline, rfl⟩
    have hannounced := announcement_eq_ok_iff.mpr ⟨_, _, _, _, rfl, hwords, htag, hoffset⟩
    have hsnapshot : readSnapshot (Reply.line '$' length ++ (snapshot ++ rest)) =
        (.ok snapshot, rest) := readSnapshot_eq_ok_iff.mpr ⟨length, hlength, hfits, rfl⟩
    simp only [readResync, hread, hannounced, hsnapshot]

end Readers

/-- The texts that the answers to some exchanges must have. -/
def expectations (exchanges : List Exchange) : List String := exchanges.map (·.expected)

-- An answer that does not match is not the first of any answers that match.
theorem not_answered_of_check {exchange : Exchange} {input unread : Bytes} {e : Error}
    (hcheck : exchange.check input = (.error e, unread)) (later : List String) (rest : Bytes) :
    ¬Answered (exchange.expected :: later) input rest := by
  rintro (_ | ⟨hline, hword, -⟩)
  rw [check_simple exchange hline hword] at hcheck
  simp at hcheck

-- An answer that matches can be left out, with the bytes that hold it.
theorem answered_cons_iff {exchange : Exchange} {input after : Bytes}
    (hcheck : exchange.check input = (.ok (), after)) (later : List String) (rest : Bytes) :
    Answered (exchange.expected :: later) input rest ↔ Answered later after rest := by
  constructor
  · rintro (_ | ⟨hline, hword, hlater⟩)
    rw [check_simple exchange hline hword] at hcheck
    exact (Prod.mk.inj hcheck).2 ▸ hlater
  · intro hlater
    rcases (check_eq_ok_iff exchange).mp hcheck with ⟨text, hline, hword, rfl⟩
    exact .cons hline hword hlater

/-- From some exchanges on, the handshake succeeds exactly if their answers have come, and then the
    announcement of a resync; it ends with this resync and leaves what is behind it. -/
theorem runFrom_eq_ok_iff (exchanges : List Exchange) :
    ∀ {input rest : Bytes} {resync : Resync},
      ((runFrom exchanges input).outcome = .ok resync ∧
        (runFrom exchanges input).unread = rest) ↔
        ∃ after, Answered (expectations exchanges) input after ∧ resync.Announced after rest := by
  induction exchanges with
  | nil =>
      intro input rest resync
      rw [runFrom, ← Prod.mk.injEq, readResync_eq_ok_iff]
      constructor
      · exact fun h => ⟨input, .nil, h⟩
      · rintro ⟨after, hnil, h⟩
        cases hnil
        exact h
  | cons exchange later ih =>
      intro input rest resync
      rw [expectations, List.map_cons, ← expectations]
      rcases hcheck : exchange.check input with ⟨e | ok, after⟩
      · simp only [runFrom, hcheck, reduceCtorEq, false_and, false_iff, not_exists, not_and]
        exact fun left hanswered => absurd hanswered (not_answered_of_check hcheck _ _)
      · simp only [runFrom, hcheck, answered_cons_iff hcheck, ih]

/-- How far the replica gets: it sends one command more than answers match, if there is one. -/
theorem runFrom_sent (exchanges : List Exchange) :
    ∀ input : Bytes, ∃ count ≤ exchanges.length,
      (runFrom exchanges input).sent =
        ((exchanges.map (·.words) ++ [resyncRequest]).take (count + 1)).flatMap request ∧
      ∀ k ≤ exchanges.length,
        k ≤ count ↔ ∃ after, Answered ((expectations exchanges).take k) input after := by
  induction exchanges with
  | nil =>
      intro input
      refine ⟨0, Nat.le_refl _, ?_, fun k hk => ?_⟩
      · exact (List.append_nil _).symm
      · exact iff_of_true hk ⟨input, by rw [List.take_of_length_le (Nat.zero_le k)]; exact .nil⟩
  | cons exchange later ih =>
      intro input
      rcases hcheck : exchange.check input with ⟨e | ok, after⟩
      · -- Only the first command is sent, and no answers match but none.
        refine ⟨0, Nat.zero_le _, ?_, fun k _ => ?_⟩
        · simp [runFrom, hcheck]
        cases k with
        | zero => exact iff_of_true (Nat.le_refl 0) ⟨input, .nil⟩
        | succ k =>
            refine iff_of_false (by omega) ?_
            rintro ⟨left, hanswered⟩
            exact not_answered_of_check hcheck _ _ hanswered
      · rcases ih after with ⟨count, hcount, hsent, hmatched⟩
        refine ⟨count + 1, by rw [List.length_cons]; omega, ?_, fun k hk => ?_⟩
        · simp only [runFrom, hcheck, hsent, List.map_cons, List.cons_append, List.take_succ_cons,
            List.flatMap_cons]
        cases k with
        | zero => exact iff_of_true (Nat.zero_le _) ⟨input, .nil⟩
        | succ k =>
            rw [List.length_cons] at hk
            rw [expectations, List.map_cons, ← expectations, List.take_succ_cons,
              Nat.succ_le_succ_iff, hmatched k (by omega)]
            simp only [answered_cons_iff hcheck]

/-- The handshake accepts exactly the protocol, and sends no more than it has earned.

    For any bytes of a master it succeeds exactly if they are lines with `PONG`, `OK` and `OK` in
    any letter case (lines as a reader of replies decodes them), a line whose words begin with
    `FULLRESYNC`, an id and an offset, and a snapshot that is not too long; it then ends with that
    id, offset and snapshot, and everything behind the snapshot is unread. In every case some of
    the commands were sent, from the first on, and a command only if the answers to all commands
    before it match. -/
theorem run_eq_ok_iff_and_sent (port : UInt16) (input : Bytes) :
    (∀ (resync : Resync) (rest : Bytes),
      ((run port input).outcome = .ok resync ∧ (run port input).unread = rest) ↔
        ∃ after, Answered ["PONG", "OK", "OK"] input after ∧ resync.Announced after rest) ∧
    (∀ (text : String) (bytes rest : Bytes),
      Reply.read bytes = (.ok (.simple text), rest) ↔
        '\n' ∉ text.toList ∧ bytes = (Reply.simple text).encode ++ rest) ∧
    ∃ count ≤ 3, (run port input).sent = ((commands port).take (count + 1)).flatMap request ∧
      ∀ k ≤ 3, k ≤ count ↔ ∃ after, Answered (["PONG", "OK", "OK"].take k) input after :=
  ⟨fun _ _ => runFrom_eq_ok_iff (exchanges port), fun _ _ _ => Reply.read_simple_iff,
    runFrom_sent (exchanges port) input⟩

/-- Answers in any letter case, a word behind the offset, a length with a sign, and a command behind
    the snapshot. -/
theorem run_mixed_case :
    let input := Text.bytes "+pong\r\n+OK\r\n+oK\r\n+FullResync 8371 7 more\r\n$+5\r\nREDIS*1\r\n"
    (run 6380 input).outcome = .ok ⟨"8371", 7, Text.bytes "REDIS"⟩ ∧
      (run 6380 input).unread = Text.bytes "*1\r\n" := by
  intro input
  have hwords : Text.words "FullResync 8371 7 more" = ["FullResync", "8371", "7", "more"] := by
    decide +kernel
  have hannounced : Resync.Announced ⟨"8371", 7, Text.bytes "REDIS"⟩
      ((Reply.simple "FullResync 8371 7 more").encode ++
        (Reply.line '$' "+5" ++ (Text.bytes "REDIS" ++ Text.bytes "*1\r\n")))
      (Text.bytes "*1\r\n") :=
    .intro (by decide) hwords (Text.sameWord_iff.mpr (by decide)) (by decide +kernel)
      (by decide +kernel) (by decide +kernel)
  have hinput : input = (Reply.simple "pong").encode ++ ((Reply.simple "OK").encode ++
      ((Reply.simple "oK").encode ++ ((Reply.simple "FullResync 8371 7 more").encode ++
        (Reply.line '$' "+5" ++ (Text.bytes "REDIS" ++ Text.bytes "*1\r\n"))))) := by
    decide +kernel
  have hanswered : ∃ after, Answered ["PONG", "OK", "OK"] input after ∧
      Resync.Announced ⟨"8371", 7, Text.bytes "REDIS"⟩ after (Text.bytes "*1\r\n") := by
    rw [hinput]
    exact ⟨_, .cons (by decide) (Text.sameWord_iff.mpr (by decide)) <|
      .cons (by decide) (Text.sameWord_iff.mpr (by decide)) <|
      .cons (by decide) (Text.sameWord_iff.mpr (by decide)) .nil, hannounced⟩
  exact ((run_eq_ok_iff_and_sent 6380 input).1 _ _).mpr hanswered

end Handshake

end KeyValue
