import ParticleSim.Proofs.Outline.Places
import ParticleSim.Proofs.Outline.QuotedEnd
import ParticleSim.Proofs.Tree.Shape

namespace ParticleSim.Outline.Flow

/-- A fault of the text that stands at the end of a span. A key that is repeated is written before
as well. -/
def Located (span : Span) (text : List Char) (e : ParseError) : Prop :=
  e.line = span.line ∧ ∃ place, place <:+ text ∧ e.column = span.column place ∧
    e.fault.Points place ∧ ∀ key, e.fault = .duplicateKey key →
      ∃ first, first <:+ text ∧ place.length < first.length ∧ StartsEntry key first

variable {span : Span} {text : List Char}

theorem Located.mono {e : ParseError} (located : Located span text e) {whole : List Char}
    (suffix : text <:+ whole) : Located span whole e := by
  obtain ⟨line, place, inside, column, points, repeated⟩ := located
  refine ⟨line, place, inside.trans suffix, column, points, fun key duplicate => ?_⟩
  obtain ⟨first, before, longer, entry⟩ := repeated key duplicate
  exact ⟨first, before.trans suffix, longer, entry⟩

/-- A fault other than a repeated key at the start of what remains of the text. -/
theorem located_at {place : List Char} {fault : Fault} (inside : place <:+ text)
    (points : fault.Points place) (fresh : ∀ key, fault ≠ .duplicateKey key) :
    Located span text ⟨span.line, span.column place, fault⟩ :=
  ⟨rfl, place, inside, rfl, points, fun key duplicate => absurd duplicate (fresh key)⟩

theorem located_unexpected {place : List Char} (inside : place <:+ text) (content : Surprise) :
    Located span text ⟨span.line, span.column place, .unexpected content⟩ :=
  located_at inside (fun _ => trivial) (fun _ => Fault.noConfusion)

/-! Scalars and keys. -/

theorem located_of_flawed {flaw : Quoted.Flaw} (room : text.length ≤ span.stop)
    (quote : ∃ c ∈ text.head?, Quoted.isQuote c = true)
    (flawed : Quoted.Flawed Quoted.length? 0 text flaw) :
    Located span text (flaw.toError span.line (span.column text)) := by
  cases flaw with
  | unterminated =>
    exact located_at List.suffix_rfl (fun _ => ⟨quote, flawed⟩) (fun _ => Fault.noConfusion)
  | badEscape offset sequence =>
    obtain ⟨-, found, slash⟩ := flawed
    have inside : offset < text.length := by
      by_contra outside
      rw [Nat.sub_zero, List.drop_eq_nil_of_le (by omega), List.prefix_nil] at found
      rw [found] at slash
      cases slash
    have column : span.column text + offset = span.column (text.drop offset) := by
      rw [Span.column, Span.column, List.length_drop]
      omega
    have located : Located span text
        ⟨span.line, span.column (text.drop offset), .invalidEscape (String.ofList sequence)⟩ :=
      located_at (List.drop_suffix _ _)
        (fun _ => by simpa only [Fault.Marks, String.toList_ofList] using ⟨found, slash⟩)
        (fun _ => Fault.noConfusion)
    rwa [← column] at located

theorem readAt_meets (room : text.length ≤ span.stop)
    (quote : ∃ c ∈ text.head?, Quoted.isQuote c = true) :
    Meets (Quoted.Closed (fun _ => Quoted.read) Quoted.length? text) (Located span text)
      (Quoted.readAt span.line (span.column text) text) :=
  (Quoted.read_meets text).mapError fun _ => located_of_flawed room quote

theorem readPlain_split (isKey : Bool) (text : List Char) :
    ∃ gap, Blank gap ∧ text = (readPlain isKey text).1 ++ gap ++ (readPlain isKey text).2 := by
  obtain ⟨gap, blank, same⟩ := exists_blank_trimEnd
    (text.takeWhile fun c => !(isBreak c || (isKey && c == ':')))
  refine ⟨gap, blank, ?_⟩
  rw [readPlain]
  dsimp only
  rw [← same, List.takeWhile_append_dropWhile]

theorem readKey_meets (room : text.length ≤ span.stop) :
    Meets (fun (key, rest) => ∃ written gap, KeyForm key written ∧ Blank gap ∧
      text = written ++ gap ++ rest) (Located span text) (readKey span text) := by
  -- whatever the key is read from, an empty one is a fault
  have checked : ∀ key rest, (key ≠ [] → ∃ written gap, KeyForm (String.ofList key) written ∧
      Blank gap ∧ text = written ++ gap ++ rest) →
      Meets (fun (key, rest) => ∃ written gap, KeyForm key written ∧ Blank gap ∧
        text = written ++ gap ++ rest) (Located span text)
        (if key.isEmpty then span.fail text (.unexpected .emptyKey)
          else pure (String.ofList key, rest)) := by
    intro key rest form
    split
    · exact located_unexpected List.suffix_rfl _
    · next nonempty => exact form (by rwa [List.isEmpty_iff] at nonempty)
  rw [readKey.eq_def]
  dsimp only
  split
  · exact checked [] [] fun nonempty => absurd rfl nonempty
  · next c rest =>
    split
    · next quote =>
      refine (readAt_meets room ⟨c, rfl, quote⟩).bind ?_
      rintro ⟨key, after⟩ ⟨written, same, -, read⟩
      refine checked key after fun _ => ⟨written, [], .quoted ?_, by simp [Blank], ?_⟩
      · rw [String.toList_ofList]
        exact read 0
      · rw [List.append_nil]
        exact same
    · next noQuote =>
      refine checked _ _ fun nonempty => ?_
      obtain ⟨gap, blank, same⟩ := readPlain_split true (c :: rest)
      refine ⟨_, gap, ?_, blank, same⟩
      obtain ⟨d, more, key⟩ := List.exists_cons_of_ne_nil nonempty
      rw [key, List.cons_append, List.cons_append] at same
      obtain ⟨rfl, -⟩ := List.cons.inj same
      rw [key]
      exact .plain String.toList_ofList (Bool.not_eq_true _ ▸ noQuote)

theorem startsEntry_of_colon {key : String} {written gap rest after : List Char}
    (form : KeyForm key written) (blank : Blank gap) (same : text = written ++ gap ++ rest)
    (colon : skipSpaces rest = ':' :: after) : StartsEntry key text := by
  obtain ⟨more, blank', split⟩ := exists_blank_skipSpaces rest
  rw [colon] at split
  refine ⟨written, gap ++ more, after, form, blank.append blank', ?_⟩
  rw [same, split]
  simp only [List.append_assoc]

def Written (whole : List Char) (fields : Fields Node) (text : List Char) : Prop :=
  ∀ key ∈ fields.keys, ∃ first, first <:+ whole ∧ text.length < first.length ∧
    StartsEntry key first

theorem Written.insert {whole start more : List Char} {fields : Fields Node} {key : String}
    (earlier : Written whole fields text) (within : start <:+ whole)
    (inside : start.length ≤ text.length) (entry : StartsEntry key start)
    (fresh : fields.contains key = false) (shorter : more.length < start.length) (value : Node) :
    Written whole (fields.insert key value) more := by
  intro name member
  rcases (Fields.mem_keys_insert (Fields.contains_eq_false_iff.mp fresh)).mp member with
    before | rfl
  · obtain ⟨first, before, longer, entry'⟩ := earlier name before
    exact ⟨first, before, Nat.lt_trans shorter (Nat.lt_of_le_of_lt inside longer), entry'⟩
  · exact ⟨start, within, shorter, entry⟩

/-- A key that was read before is reported where it stands again. -/
theorem Written.repeated {whole start : List Char} {fields : Fields Node} {key : String}
    (earlier : Written whole fields text) (within : start <:+ whole)
    (inside : start.length ≤ text.length) (entry : StartsEntry key start)
    (known : fields.contains key = true) :
    Located span whole ⟨span.line, span.column start, .duplicateKey key⟩ := by
  refine ⟨rfl, start, within, rfl, fun _ => entry, fun other duplicate => ?_⟩
  cases duplicate
  obtain ⟨first, before, longer, entry'⟩ := earlier key (Fields.contains_iff.mp known)
  exact ⟨first, before, Nat.lt_of_le_of_lt inside longer, entry'⟩

section Values

/-! Readers of items and entries take any reader of values that is sound. -/

variable {budget : Nat} {readValue : List Char → Except ParseError (Node × List Char)}

def Reads (budget : Nat) (text : List Char) (result : Node × List Char) : Prop :=
  result.1.Fits budget ∧ result.2 <:+ text

/-- A fault of the text, or the opening bracket or brace is left without its closer. -/
def Fails (span : Span) (opened : List Char) (closer : Char) (text : List Char) (e : ParseError) :
    Prop :=
  Located span text e ∨ e = ⟨span.line, span.column opened, .unclosedFlow closer⟩

theorem Fails.mono {closer : Char} {e : ParseError} (fails : Fails span opened closer text e)
    {whole : List Char} (suffix : text <:+ whole) : Fails span opened closer whole e :=
  fails.imp_left fun located => located.mono suffix

variable (sound : ∀ text, text.length ≤ span.stop →
  Meets (Reads budget text) (Located span text) (readValue text))
include sound

theorem readItems_meets (opened : List Char) (bound : Nat) {text : List Char}
    (room : text.length ≤ span.stop) :
    Meets (fun (items, rest) => (∀ item ∈ items, item.Fits budget) ∧ rest <:+ text)
      (Fails span opened ']' text) (readItems span readValue opened bound text) := by
  induction bound generalizing text with
  | zero => exact .inr rfl
  | succ bound ih =>
    have inside := skipSpaces_suffix text
    rw [readItems]
    split
    · exact .inr rfl
    · next rest left =>
      rw [left] at inside
      exact ⟨by simp, (List.suffix_cons ..).trans inside⟩
    · next c rest closer left =>
      rw [left] at inside
      refine ((sound (c :: rest) (Nat.le_trans inside.length_le room)).faults
        fun e located => .inl (located.mono inside)).bind ?_
      rintro ⟨item, rest⟩ ⟨fits, within⟩
      have further := (skipSpaces_suffix rest).trans (within.trans inside)
      dsimp only
      split
      · exact .inr rfl
      · next more left =>
        rw [left] at further
        have further := (List.suffix_cons ..).trans further
        refine ((ih (Nat.le_trans further.length_le room)).faults
          fun e fails => fails.mono further).bind ?_
        rintro ⟨items, last⟩ ⟨others, behind⟩
        exact ⟨List.forall_mem_cons.mpr ⟨fits, others⟩, behind.trans further⟩
      · next more left =>
        rw [left] at further
        exact ⟨List.forall_mem_singleton.mpr fits, (List.suffix_cons ..).trans further⟩
      · next d more comma closer left =>
        rw [left] at further
        exact .inl (located_unexpected further _)

theorem readEntryValue_meets (opened : List Char) {text : List Char}
    (room : text.length ≤ span.stop) :
    Meets (Reads budget text) (Fails span opened '}' text)
      (readEntryValue span readValue opened text) := by
  have inside := skipSpaces_suffix text
  rw [readEntryValue.eq_def]
  split
  · exact .inr rfl
  · next c rest left =>
    rw [left] at inside
    split
    · exact ⟨Node.fits_scalar budget .null, inside⟩
    · refine (sound (c :: rest) (Nat.le_trans inside.length_le room)).imp ?_ ?_
      · exact fun result reads => ⟨reads.1, reads.2.trans inside⟩
      · exact fun e located => .inl (located.mono inside)

theorem readEntries_meets (opened : List Char) (bound : Nat) {whole text : List Char}
    {fields : Fields Node} (room : whole.length ≤ span.stop) (inside : text <:+ whole)
    (fit : Node.FieldsFit budget fields) (earlier : Written whole fields text) :
    Meets (fun (fields, rest) => Node.FieldsFit budget fields ∧ rest <:+ text)
      (Fails span opened '}' whole) (readEntries span readValue opened bound fields text) := by
  induction bound generalizing text fields with
  | zero => exact .inr rfl
  | succ bound ih =>
    have start := skipSpaces_suffix text
    rw [readEntries]
    split
    · exact .inr rfl
    · next rest left =>
      rw [left] at start
      exact ⟨fit, (List.suffix_cons ..).trans start⟩
    · next c rest closer left =>
      rw [left] at start
      have within := start.trans inside
      refine ((readKey_meets (Nat.le_trans within.length_le room)).faults
        fun e located => .inl (located.mono within)).bind ?_
      rintro ⟨key, afterKey⟩ ⟨written, gap, form, blank, same⟩
      have behindKey : afterKey <:+ c :: rest := ⟨written ++ gap, same.symm⟩
      have colon := (skipSpaces_suffix afterKey).trans behindKey
      dsimp only
      split
      · exact .inr rfl
      · next afterColon left =>
        have entry : StartsEntry key (c :: rest) := startsEntry_of_colon form blank same left
        rw [left] at colon
        have value := (List.suffix_cons ..).trans (colon.trans within)
        refine ((readEntryValue_meets sound opened (Nat.le_trans value.length_le room)).faults
          fun e fails => fails.mono value).bind ?_
        rintro ⟨node, afterValue⟩ ⟨fits, behindValue⟩
        dsimp only
        split
        · next known => exact .inl (earlier.repeated within start.length_le entry known)
        · next fresh =>
          have fresh := Bool.not_eq_true _ ▸ fresh
          have fit := fit.insert fresh fits
          have behind := behindValue.trans ((List.suffix_cons ..).trans colon)
          have last := (skipSpaces_suffix afterValue).trans behind
          split
          · exact .inr rfl
          · next more left =>
            rw [left] at last
            have further := (List.suffix_cons ..).trans last
            have shorter : more.length < (c :: rest).length :=
              Nat.lt_of_lt_of_le (Nat.lt_succ_self _) last.length_le
            have earlier := earlier.insert within start.length_le entry fresh shorter node
            exact (ih (further.trans within) fit earlier).values
              fun result good => ⟨good.1, good.2.trans (further.trans start)⟩
          · next more left =>
            rw [left] at last
            exact ⟨fit, (List.suffix_cons ..).trans (last.trans start)⟩
          · next d more comma closer left =>
            rw [left] at last
            exact .inl (located_unexpected (last.trans within) _)
      · next d more noColon left =>
        rw [left] at colon
        exact .inl (located_unexpected (colon.trans within) _)

end Values

/-- The collection that is left open is the one whose reader says so. -/
theorem Fails.located {opened rest : List Char} {closer : Char} {budget : Nat} {e : ParseError}
    (fails : Fails span opened closer rest e) (opens : OpensFlow closer opened)
    (inside : rest <:+ opened) (own : readValue span budget opened = .error e) :
    Located span opened e := by
  rcases fails with located | rfl
  · exact located.mono inside
  · exact located_at List.suffix_rfl (fun _ => ⟨opens, span, budget, own⟩)
      (fun _ => Fault.noConfusion)

theorem readValue_sequence (budget : Nat) (rest : List Char) :
    readValue span (budget + 1) ('[' :: rest) =
      (readItems span (readValue span budget) ('[' :: rest) (rest.length + 1) rest).map
        fun (items, rest) => (.sequence items, rest) := by
  rw [readValue.eq_def]
  rfl

theorem readValue_mapping (budget : Nat) (rest : List Char) :
    readValue span (budget + 1) ('{' :: rest) =
      (readEntries span (readValue span budget) ('{' :: rest) (rest.length + 1) [] rest).map
        fun (fields, rest) => (.mapping fields, rest) := by
  rw [readValue.eq_def]
  rfl

theorem collection_meets {α : Type} {good : α → Prop} {result : Except ParseError α}
    {f : α → Node × List Char} {budget : Nat} {opened rest : List Char} {closer : Char}
    (meets : Meets good (Fails span opened closer rest) result)
    (own : readValue span budget opened = result.map f) (opens : OpensFlow closer opened)
    (behind : rest <:+ opened) (inside : opened <:+ text)
    (values : ∀ value, good value → Reads budget text (f value)) :
    Meets (Reads budget text) (Located span text) (result.map f) := by
  cases result with
  | ok value => exact values value meets
  | error e => exact (Fails.located meets opens behind own).mono inside

/-- The value fits the nesting that is left, and what remains is the end of the text; or a fault
marks a place in the text. -/
theorem readValue_meets (budget : Nat) {text : List Char} (room : text.length ≤ span.stop) :
    Meets (Reads budget text) (Located span text) (readValue span budget text) := by
  induction budget using Nat.strongRecOn generalizing text with
  | ind budget ih =>
    have inside := skipSpaces_suffix text
    rw [readValue.eq_def]
    dsimp only
    split
    · exact located_unexpected List.nil_suffix _
    · next rest left =>
      rw [left] at inside
      cases budget with
      | zero => exact located_at inside (fun _ => .inr (.inl rfl)) (fun _ => Fault.noConfusion)
      | succ budget =>
        have within := (List.suffix_cons '[' rest).trans inside
        have meets := readItems_meets
          (fun text room => ih budget (Nat.lt_succ_self budget) room) ('[' :: rest)
          (rest.length + 1) (Nat.le_trans within.length_le room)
        exact collection_meets meets (readValue_sequence budget rest) (.inl ⟨rfl, rfl⟩)
          (List.suffix_cons '[' rest) inside
          fun _ good => ⟨Node.fits_sequence good.1, good.2.trans within⟩
    · next rest left =>
      rw [left] at inside
      cases budget with
      | zero => exact located_at inside (fun _ => .inr (.inr rfl)) (fun _ => Fault.noConfusion)
      | succ budget =>
        have within := (List.suffix_cons '{' rest).trans inside
        have meets := readEntries_meets
          (fun text room => ih budget (Nat.lt_succ_self budget) room) ('{' :: rest)
          (rest.length + 1) (Nat.le_trans within.length_le room) List.suffix_rfl (.nil budget)
          (fun key member => absurd member List.not_mem_nil)
        exact collection_meets meets (readValue_mapping budget rest) (.inr ⟨rfl, rfl⟩)
          (List.suffix_cons '{' rest) inside
          fun _ good => ⟨Node.FieldsFit.mapping good.1, good.2.trans within⟩
    · next c rest _ _ left =>
      rw [left] at inside
      split
      · next quote =>
        refine ((readAt_meets (Nat.le_trans inside.length_le room) ⟨c, rfl, quote⟩).faults
          fun e located => located.mono inside).map ?_
        rintro ⟨value, after⟩ ⟨written, same, -, -⟩
        have behind : after <:+ c :: rest := ⟨written, same.symm⟩
        exact ⟨Node.fits_scalar budget _, behind.trans inside⟩
      · split
        · exact located_unexpected inside _
        · obtain ⟨gap, -, same⟩ := readPlain_split false (c :: rest)
          have behind : (readPlain false (c :: rest)).2 <:+ c :: rest := ⟨_, same.symm⟩
          exact ⟨Node.fits_scalar budget _, behind.trans inside⟩

end ParticleSim.Outline.Flow
