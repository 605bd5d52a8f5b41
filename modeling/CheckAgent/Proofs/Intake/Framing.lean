import CheckAgent.Intake.Lines
import CheckAgent.Proofs.Text.Blank
import CheckAgent.Proofs.Text.Utf8

/-!
# The messages of a stream

A stream of bytes is read chunk by chunk, and its lines wait until somebody asks for a message.
**What is received depends on the bytes alone**: on the lines that they make up when they are put
together (`Lines.ofStream`), and on the texts of these (`Lines.messages`).

Cutting the stream at its line feeds is the inverse of joining lines (`Lines.cut_eq_iff`). So what
a chunk leaves behind its last line feed stands before the next chunk as if it had come with it
(`Lines.cut_append`), wherever the stream was cut: within a character, or within a line end.

**Main result** (`framed`). Whoever asks for messages, at whatever times, receives the messages of
the stream in turn and each once, and what has not been received is still there. Nothing is lost by
asking in vain. Who asks often enough receives them all, and from then on nothing.
-/

namespace CheckAgent

open CheckAgent.Text

namespace Lines

/-- The byte that ends a line, and the one that may stand before it. -/
def lineFeed : UInt8 := '\n'.toUInt8
def carriageReturn : UInt8 := '\r'.toUInt8

/-- The lines of a stream. What follows the last line feed is a line if it is not empty and the
stream ends there. -/
def ofStream (staysOpen : Bool) (bytes : Bytes) : List Bytes :=
  if staysOpen || (cut bytes).2.isEmpty then (cut bytes).1 else (cut bytes).1 ++ [(cut bytes).2]

/-- The messages of some lines: the texts that are not blank, up to the first line that is not
UTF-8. -/
def messages (lines : List Bytes) : List String :=
  ((lines.map text?).takeWhile (·.isSome)).filterMap fun text => text.filter (· ≠ "")

/-! ## Cutting at line feeds -/

variable {line bytes tail : Bytes} {lines : List Bytes}

theorem cut_cons (b : UInt8) (rest : Bytes) : cut (b :: rest) =
    if b = lineFeed then ([] :: (cut rest).1, (cut rest).2)
    else
      match (cut rest).1 with
      | [] => ([], b :: (cut rest).2)
      | line :: lines => ((b :: line) :: lines, (cut rest).2) := rfl

theorem cut_tail (whole : lineFeed ∉ tail) : cut tail = ([], tail) := by
  induction tail with
  | nil => rfl
  | cons b tail ih =>
    obtain ⟨other, whole⟩ := not_or.mp (mt List.mem_cons.mpr whole)
    rw [cut_cons, if_neg (Ne.symm other), ih whole]

theorem cut_line (whole : lineFeed ∉ line) (rest : Bytes) :
    cut (line ++ lineFeed :: rest) = (line :: (cut rest).1, (cut rest).2) := by
  induction line with
  | nil => rw [List.nil_append, cut_cons, if_pos rfl]
  | cons b line ih =>
    obtain ⟨other, whole⟩ := not_or.mp (mt List.mem_cons.mpr whole)
    rw [List.cons_append, cut_cons, if_neg (Ne.symm other), ih whole]

/-- Lines that are put together, each with a line feed, and what follows them. -/
def joined (lines : List Bytes) (tail : Bytes) : Bytes :=
  lines.flatMap (· ++ [lineFeed]) ++ tail

theorem joined_cons : joined (line :: lines) tail = line ++ lineFeed :: joined lines tail := by
  simp [joined]

theorem cut_joined (whole : ∀ line ∈ tail :: lines, lineFeed ∉ line) :
    cut (joined lines tail) = (lines, tail) := by
  induction lines with
  | nil => exact cut_tail (whole tail List.mem_cons_self)
  | cons line lines ih =>
    have first : lineFeed ∉ line := whole line (by simp)
    have others : ∀ line ∈ tail :: lines, lineFeed ∉ line := by
      intro line mem
      refine whole line ?_
      rcases List.mem_cons.mp mem with rfl | mem <;> simp [*]
    rw [joined_cons, cut_line first, ih others]

theorem exists_joined (bytes : Bytes) : ∃ lines tail, bytes = joined lines tail ∧
    ∀ line ∈ tail :: lines, lineFeed ∉ line := by
  induction bytes with
  | nil => exact ⟨[], [], rfl, by simp⟩
  | cons b rest ih =>
    obtain ⟨lines, tail, rfl, whole⟩ := ih
    by_cases ends : b = lineFeed
    · subst ends
      refine ⟨[] :: lines, tail, by rw [joined_cons]; rfl, ?_⟩
      simpa using whole
    · cases lines with
      | nil =>
        refine ⟨[], b :: tail, rfl, ?_⟩
        simpa [Ne.symm ends] using whole
      | cons line lines =>
        refine ⟨(b :: line) :: lines, tail, by rw [joined_cons, joined_cons]; rfl, ?_⟩
        simpa [Ne.symm ends] using whole

/-- **Cutting undoes joining.** -/
theorem cut_eq_iff : cut bytes = (lines, tail) ↔
    bytes = joined lines tail ∧ ∀ line ∈ tail :: lines, lineFeed ∉ line := by
  constructor
  · intro cuts
    obtain ⟨lines', tail', joins, whole⟩ := exists_joined bytes
    rw [joins, cut_joined whole] at cuts
    cases cuts
    exact ⟨joins, whole⟩
  · rintro ⟨rfl, whole⟩
    exact cut_joined whole

theorem joined_append (lines more : List Bytes) (tail : Bytes) :
    joined (lines ++ more) tail = joined lines (joined more tail) := by
  simp [joined]

/-- **Where bytes are cut into chunks does not show**: what is left of the first ones stands before
the others. -/
theorem cut_append (bytes more : Bytes) : cut (bytes ++ more) =
    ((cut bytes).1 ++ (cut ((cut bytes).2 ++ more)).1, (cut ((cut bytes).2 ++ more)).2) := by
  obtain ⟨joins, whole⟩ := cut_eq_iff.mp (rfl : cut bytes = ((cut bytes).1, (cut bytes).2))
  generalize cut bytes = out at joins whole
  obtain ⟨lines, tail⟩ := out
  dsimp only at joins whole ⊢
  obtain ⟨joins', whole'⟩ :=
    cut_eq_iff.mp (rfl : cut (tail ++ more) = ((cut (tail ++ more)).1, (cut (tail ++ more)).2))
  refine cut_eq_iff.mpr ⟨?_, fun line mem => ?_⟩
  · rw [joined_append, ← joins', joins]
    simp [joined]
  · rcases List.mem_cons.mp mem with rfl | mem
    · exact whole' _ List.mem_cons_self
    · rcases List.mem_append.mp mem with mem | mem
      · exact whole line (List.mem_cons_of_mem _ mem)
      · exact whole' line (List.mem_cons_of_mem _ mem)

theorem lineFeed_notMem_tail (bytes : Bytes) : lineFeed ∉ (cut bytes).2 :=
  (cut_eq_iff.mp (rfl : cut bytes = ((cut bytes).1, (cut bytes).2))).2 _ List.mem_cons_self

theorem ofStream_append (staysOpen : Bool) (bytes more : Bytes) :
    ofStream staysOpen (bytes ++ more) =
      (cut bytes).1 ++ ofStream staysOpen ((cut bytes).2 ++ more) := by
  unfold ofStream
  rw [cut_append]
  dsimp only
  split
  · rfl
  · exact List.append_assoc ..

/-! ## The texts of lines -/

theorem text?_eq_some_iff {s : String} : text? line = some s ↔
    ∃ cs, line = Utf8.encode cs ∧ s = String.ofList (trim cs) := by
  unfold text?
  rw [Option.map_eq_some_iff]
  constructor
  · rintro ⟨cs, read, rfl⟩
    exact ⟨cs, Utf8.decode?_eq_some_iff.mp read, rfl⟩
  · rintro ⟨cs, written, rfl⟩
    exact ⟨cs, Utf8.decode?_eq_some_iff.mpr written, rfl⟩

theorem text?_return (line : Bytes) : text? (line ++ [carriageReturn]) = text? line := by
  unfold text?
  rw [Utf8.decode?_concat_of_ascii (c := '\r') rfl (by decide), Option.map_map]
  cases Utf8.decode? line with
  | none => rfl
  | some cs =>
    have blank : trim (cs ++ ['\r']) = trim cs := trim_concat rfl cs
    simp [blank]

theorem messages_nil : messages [] = [] := rfl

theorem messages_of_none (broken : text? line = none) : messages (line :: lines) = [] := by
  simp [messages, broken]

theorem messages_of_some {s : String} (read : text? line = some s) : messages (line :: lines) =
    if s = "" then messages lines else s :: messages lines := by
  by_cases blank : s = "" <;> simp [messages, read, blank, Option.filter]

/-- The lines behind one that is not UTF-8 do not count. -/
theorem messages_append (lines more : List Bytes) : messages (lines ++ more) =
    messages lines ++ if ∀ line ∈ lines, (text? line).isSome then messages more else [] := by
  induction lines with
  | nil => simp [messages_nil]
  | cons line lines ih =>
    rw [List.cons_append]
    cases read : text? line with
    | none => simp [messages_of_none read, read]
    | some s =>
      rw [messages_of_some read, messages_of_some read, ih]
      by_cases blank : s = "" <;> simp [blank, read]

end Lines

namespace Feed

open Lines

variable {f : Feed} {t now latest : Nat} {staysOpen : Bool} {arrived : List (Nat × String)}
  {pending : Bytes} {chunks : List (Nat × Bytes)} {pauses : List Nat}

def texts (f : Feed) : List String := f.lines.map (·.2)

/-- Ask for messages one after the other, with a pause before each request: the answers with the
times at which they came, and the rest of the stream. -/
def asked (f : Feed) (t : Nat) : List Nat → List (Option String × Nat) × Feed
  | [] => ([], f)
  | pause :: pauses =>
    let (message, ended, rest) := f.receive (t + pause)
    ((message, ended) :: (asked rest ended pauses).1, (asked rest ended pauses).2)

/-- The messages that were received. -/
def received (answers : List (Option String × Nat)) : List String := answers.filterMap (·.1)

/-- The messages of a stream: those of the lines of all its bytes. -/
def messages (chunks : List (Nat × Bytes)) (staysOpen : Bool) : List String :=
  Lines.messages (ofStream staysOpen (chunks.flatMap (·.2)))

/-- How a stream becomes messages. -/
structure Framed (chunks : List (Nat × Bytes)) (staysOpen : Bool) : Prop where
  /-- Lines are what stands between line feeds. -/
  cut_iff : ∀ bytes lines tail, cut bytes = (lines, tail) ↔
    bytes = joined lines tail ∧ ∀ line ∈ tail :: lines, lineFeed ∉ line
  /-- A line that is UTF-8 has a text, the one without the blanks around it. -/
  text_iff : ∀ line s, text? line = some s ↔
    ∃ cs, line = Utf8.encode cs ∧ s = String.ofList (trim cs)
  /-- A carriage return before the line feed does not belong to it. -/
  return_dropped : ∀ line, text? (line ++ [carriageReturn]) = text? line
  /-- The messages are those of the bytes, however these come. -/
  whole : (ofChunks chunks staysOpen).texts = messages chunks staysOpen
  /-- What has come by then does not depend on what comes later. -/
  prompt : ∀ before after, chunks = before ++ after →
    (ofChunks before true).lines <+: (ofChunks chunks staysOpen).lines ∧
      ∀ l ∈ (ofChunks before true).lines, l.1 ∈ before.map (·.1)
  /-- What is received and what is left are the messages, in turn and each once. -/
  in_turn : ∀ t pauses, received ((ofChunks chunks staysOpen).asked t pauses).1 ++
    ((ofChunks chunks staysOpen).asked t pauses).2.texts = messages chunks staysOpen
  /-- Asking often enough gives them all. -/
  all : ∀ t pauses latest, (∀ c ∈ chunks, c.1 ≤ latest) →
    (messages chunks staysOpen).length + (latest - t) / patience ≤ pauses.length →
      received ((ofChunks chunks staysOpen).asked t pauses).1 = messages chunks staysOpen
  /-- Asking in vain takes a second if there is another message, which comes later, and loses
  nothing. -/
  in_vain : ∀ t pauses now ended rest,
    ((ofChunks chunks staysOpen).asked t pauses).2.receive now = (none, ended, rest) →
      rest = ((ofChunks chunks staysOpen).asked t pauses).2 ∧
        ∀ l ∈ rest.lines.head?, ended = now + patience ∧ ended < l.1
  /-- When all has been received there is nothing any more. -/
  exhausted : ∀ t pauses, ((ofChunks chunks staysOpen).asked t pauses).2.lines = [] →
    ∀ t' more, received (((ofChunks chunks staysOpen).asked t pauses).2.asked t' more).1 = []
  /-- Requests in a row are requests without pauses. -/
  in_a_row : ∀ t n, (ofChunks chunks staysOpen).receives t n =
    ((ofChunks chunks staysOpen).asked t (List.replicate n 0)).1

/-! ## Reading the chunks -/

/-- The messages of some lines arrive together, and a line that is not UTF-8 ends the stream. -/
theorem addLines_eq (t : Nat) (arrived : List (Nat × String)) (lines : List Bytes) :
    addLines t arrived lines = ⟨arrived ++ (Lines.messages lines).map (t, ·),
      if ∀ line ∈ lines, (text? line).isSome then none else some t⟩ := by
  induction lines generalizing arrived with
  | nil => simp [addLines, messages_nil]
  | cons line lines ih =>
    unfold addLines
    split
    · next broken => simp [messages_of_none broken, broken]
    · next blank => simp [ih, messages_of_some blank, blank]
    · next s spoken read =>
      have spoken : s ≠ "" := spoken
      simp [ih, messages_of_some read, read, spoken]

theorem map_together (t : Nat) (said : List String) : (said.map (t, ·)).map (·.2) = said := by
  simp [Function.comp_def]

/-- **What arrives are the messages of the bytes**, those that were pending with those of the
chunks. -/
theorem texts_ofChunksFrom (free : lineFeed ∉ pending) :
    (ofChunksFrom staysOpen now pending arrived chunks).texts = arrived.map (·.2) ++
      Lines.messages (ofStream staysOpen (pending ++ chunks.flatMap (·.2))) := by
  induction chunks generalizing now pending arrived with
  | nil =>
    have alone : cut (pending ++ ([] : List (Nat × Bytes)).flatMap (·.2)) = ([], pending) := by
      simpa using cut_tail free
    unfold ofChunksFrom ofStream
    rw [alone]
    cases staysOpen with
    | true => simp [texts, messages_nil]
    | false => cases pending <;> simp [texts, addLines_eq, messages_nil, Function.comp_def]
  | cons chunk chunks ih =>
    obtain ⟨t, bytes⟩ := chunk
    have parts : pending ++ ((t, bytes) :: chunks).flatMap (·.2) =
        (pending ++ bytes) ++ chunks.flatMap (·.2) := by simp
    rw [parts, ofStream_append, messages_append]
    unfold ofChunksFrom
    dsimp only
    rw [addLines_eq]
    by_cases valid : ∀ line ∈ (cut (pending ++ bytes)).1, (text? line).isSome
    · simp only [if_pos valid]
      rw [ih (lineFeed_notMem_tail _), List.map_append, map_together, List.append_assoc]
    · simp only [if_neg valid]
      rw [texts, List.map_append, map_together, List.append_nil]

theorem arrived_stays : arrived <+: (ofChunksFrom staysOpen now pending arrived chunks).lines := by
  induction chunks generalizing now pending arrived with
  | nil =>
    unfold ofChunksFrom
    cases staysOpen with
    | true => exact List.prefix_refl _
    | false =>
      simp only [addLines_eq, Bool.false_eq_true, if_false]
      exact List.prefix_append ..
  | cons chunk chunks ih =>
    unfold ofChunksFrom
    dsimp only
    rw [addLines_eq]
    split
    · exact List.prefix_append ..
    · exact (List.prefix_append ..).trans ih

/-- What has come by then does not depend on what comes later. -/
theorem ofChunksFrom_before (before after : List (Nat × Bytes)) :
    (ofChunksFrom true now pending arrived before).lines <+:
      (ofChunksFrom staysOpen now pending arrived (before ++ after)).lines := by
  induction before generalizing now pending arrived with
  | nil => exact arrived_stays
  | cons chunk before ih =>
    rw [List.cons_append]
    unfold ofChunksFrom
    dsimp only
    rw [addLines_eq]
    split
    · exact List.prefix_refl _
    · exact ih

/-- A line arrives with a chunk; what is pending at the end arrives with the last one. -/
theorem time_of_mem {l : Nat × String}
    (mem : l ∈ (ofChunksFrom staysOpen now pending arrived chunks).lines) :
    l ∈ arrived ∨ l.1 ∈ chunks.map (·.1) ∨ l.1 = now ∧ pending ≠ [] := by
  induction chunks generalizing now pending arrived with
  | nil =>
    unfold ofChunksFrom at mem
    cases staysOpen with
    | true => exact .inl mem
    | false =>
      simp only [addLines_eq, Bool.false_eq_true, if_false] at mem
      rcases List.mem_append.mp mem with mem | mem
      · exact .inl mem
      · obtain ⟨s, said, rfl⟩ := List.mem_map.mp mem
        refine .inr (.inr ⟨rfl, fun none => ?_⟩)
        rw [none] at said
        cases said
  | cons chunk chunks ih =>
    obtain ⟨t, bytes⟩ := chunk
    have come {l : Nat × String}
        (mem : l ∈ arrived ++ (Lines.messages (cut (pending ++ bytes)).1).map (t, ·)) :
        l ∈ arrived ∨ l.1 = t := by
      rcases List.mem_append.mp mem with mem | mem
      · exact .inl mem
      · obtain ⟨s, -, rfl⟩ := List.mem_map.mp mem
        exact .inr rfl
    unfold ofChunksFrom at mem
    dsimp only at mem
    rw [addLines_eq] at mem
    rw [List.map_cons, List.mem_cons]
    split at mem
    · rcases come mem with mem | here
      · exact .inl mem
      · exact .inr (.inl (.inl here))
    · rcases ih mem with mem | later | ⟨here, -⟩
      · rcases come mem with mem | here
        · exact .inl mem
        · exact .inr (.inl (.inl here))
      · exact .inr (.inl (.inr later))
      · exact .inr (.inl (.inl here))

theorem time_mem_ofChunks {l : Nat × String} (mem : l ∈ (ofChunks chunks staysOpen).lines) :
    l.1 ∈ chunks.map (·.1) := by
  rcases time_of_mem mem with none | here | ⟨-, some⟩
  · cases none
  · exact here
  · exact absurd rfl some

/-! ## Asking for messages -/

theorem receives_eq (f : Feed) (t n : Nat) :
    f.receives t n = (f.asked t (List.replicate n 0)).1 := by
  induction n generalizing f t with
  | zero => rfl
  | succ n ih =>
    rw [List.replicate_succ]
    unfold receives asked
    dsimp only
    rw [ih, Nat.add_zero]

/-- What asking once comes to: the next message if it comes in time, and otherwise nothing, and then
the stream is as it was. -/
inductive Receives (f : Feed) (now : Nat) : Option String × Nat × Feed → Prop where
  | message {l : Nat × String} {lines : List (Nat × String)} (next : f.lines = l :: lines)
      (timely : l.1 ≤ now + patience) :
      Receives f now (some l.2, max now l.1, { f with lines })
  | late {l : Nat × String} {lines : List (Nat × String)} (next : f.lines = l :: lines)
      (late : now + patience < l.1) : Receives f now (none, now + patience, f)
  | nothing {ended : Nat} (empty : f.lines = []) : Receives f now (none, ended, f)

theorem receives_receive (f : Feed) (now : Nat) : f.Receives now (f.receive now) := by
  unfold receive
  cases next : f.lines with
  | nil => cases f.closed <;> exact .nothing next
  | cons l lines =>
    obtain ⟨time, s⟩ := l
    dsimp only
    by_cases timely : time ≤ now + patience
    · rw [if_pos timely]
      exact .message next timely
    · rw [if_neg timely]
      exact .late next (Nat.lt_of_not_le timely)

/-- **What is received and what is left are what was there.** -/
theorem received_asked (f : Feed) (t : Nat) (pauses : List Nat) :
    received (f.asked t pauses).1 ++ (f.asked t pauses).2.texts = f.texts := by
  induction pauses generalizing f t with
  | nil => rfl
  | cons pause pauses ih =>
    have outcome := f.receives_receive (t + pause)
    unfold asked
    generalize f.receive (t + pause) = out at outcome
    cases outcome with
    | @message l lines next timely =>
      have rest := ih { f with lines } (max (t + pause) l.1)
      have first : f.texts = l.2 :: texts { f with lines } := by rw [texts, next]; rfl
      rw [first, ← rest]
      rfl
    | late next late => exact ih f _
    | nothing empty => exact ih f _

theorem asked_of_empty (empty : f.lines = []) (t : Nat) (pauses : List Nat) :
    (f.asked t pauses).2.lines = [] ∧ received (f.asked t pauses).1 = [] := by
  have all := received_asked f t pauses
  rw [show f.texts = [] by simp [texts, empty]] at all
  obtain ⟨nothing, left⟩ := List.append_eq_nil_iff.mp all
  exact ⟨List.map_eq_nil_iff.mp left, nothing⟩

/-- **Asking often enough empties the stream**: each request receives a message, or brings the time
a second nearer to that of the next one. -/
theorem lines_asked (times : ∀ l ∈ f.lines, l.1 ≤ latest)
    (often : f.lines.length + (latest - t) / patience ≤ pauses.length) :
    (f.asked t pauses).2.lines = [] := by
  induction pauses generalizing f t with
  | nil =>
    rw [List.length_nil] at often
    exact List.length_eq_zero_iff.mp (Nat.eq_zero_of_add_eq_zero (Nat.le_zero.mp often)).1
  | cons pause pauses ih =>
    have outcome := f.receives_receive (t + pause)
    unfold asked
    generalize f.receive (t + pause) = out at outcome
    have second : patience = 1000 := rfl
    rw [List.length_cons, second] at often
    cases outcome with
    | @message l lines next timely =>
      rw [next] at times often
      refine ih (f := { f with lines }) (fun k mem => times k (List.mem_cons_of_mem l mem)) ?_
      rw [List.length_cons] at often
      rw [second]
      dsimp only
      omega
    | @late l lines next late =>
      have le := times l (next ▸ List.mem_cons_self)
      refine ih times ?_
      rw [second] at late ⊢
      omega
    | nothing empty => exact (asked_of_empty empty _ _).1

/-! ## The messages of the stream -/

/-- **What is received from a stream.** -/
theorem framed (chunks : List (Nat × Bytes)) (staysOpen : Bool) : Framed chunks staysOpen := by
  have whole : (ofChunks chunks staysOpen).texts = messages chunks staysOpen :=
    texts_ofChunksFrom List.not_mem_nil
  have in_turn (t : Nat) (pauses : List Nat) :
      received ((ofChunks chunks staysOpen).asked t pauses).1 ++
        ((ofChunks chunks staysOpen).asked t pauses).2.texts = messages chunks staysOpen :=
    (received_asked _ t pauses).trans whole
  refine {
    cut_iff := fun _ _ _ => cut_eq_iff
    text_iff := fun _ _ => text?_eq_some_iff
    return_dropped := text?_return
    whole := whole
    prompt := fun before after parts => ?prompt
    in_turn := in_turn
    all := fun t pauses latest times often => ?all
    in_vain := fun t pauses now ended rest vain => ?in_vain
    exhausted := fun t pauses empty t' more => (asked_of_empty empty t' more).2
    in_a_row := receives_eq _ }
  case prompt =>
    rw [parts]
    exact ⟨ofChunksFrom_before before after, fun l => time_mem_ofChunks⟩
  case all =>
    have early : ∀ l ∈ (ofChunks chunks staysOpen).lines, l.1 ≤ latest := by
      intro l mem
      obtain ⟨c, come, same⟩ := List.mem_map.mp (time_mem_ofChunks mem)
      exact same ▸ times c come
    have count : (ofChunks chunks staysOpen).lines.length = (messages chunks staysOpen).length := by
      rw [← whole, texts, List.length_map]
    have all := in_turn t pauses
    rw [texts, lines_asked early (count ▸ often)] at all
    simpa using all
  case in_vain =>
    have outcome := receives_receive ((ofChunks chunks staysOpen).asked t pauses).2 now
    rw [vain] at outcome
    cases outcome with
    | @late l lines next late =>
      refine ⟨rfl, fun k mem => ?_⟩
      rw [next] at mem
      cases mem
      exact ⟨rfl, late⟩
    | nothing empty =>
      refine ⟨rfl, fun k mem => ?_⟩
      rw [empty] at mem
      cases mem

/-- The stream is cut within a character and within a line end, and its last line does not end. -/
example : (ofChunks [(0, [0xC3]), (5, [0xA9, 13]), (2009, [10, 0x61])] false).receives 0 5 =
    [(none, 1000), (none, 2000), (some "é", 2009), (some "a", 2009), (none, 2009)] := by
  decide +kernel

end Feed

end CheckAgent
