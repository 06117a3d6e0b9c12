import BenchHarness.Proofs.Output
import BenchHarness.Proofs.Utf8

/-!
# What arrives

Text is written in pieces, and on its way to standard output it waits in a buffer. None of this shows
where everything is taken: whatever has arrived, with what is still on its way, grows by exactly the
text that is written (`Channel.Emits`), and when a report or a list has been written nothing is on its
way any more (`CommandLine.reporter_prints`, `CommandLine.writeOut_prints`).
-/

namespace BenchHarness

/-! ## Channels -/

/-- A view of something that takes bytes: when it takes all of them, and what has arrived so far. -/
structure Channel (σ : Type) where
  Ready : σ → Prop
  arrived : σ → Bytes

namespace Channel

variable {σ ε : Type} (channel : Channel σ)

/-- An act makes exactly some bytes arrive, without an error. -/
def Emits (act : σ → Option ε × σ) (bytes : Bytes) : Prop :=
  ∀ s, channel.Ready s → (act s).1 = none ∧ channel.Ready (act s).2 ∧
    channel.arrived (act s).2 = channel.arrived s ++ bytes

/-- A way of writing makes everything arrive. -/
def Carries (put : Put σ) : Prop := ∀ data, channel.Emits (put data) data

variable {channel} {put : Put σ}

theorem Emits.all (carries : channel.Carries put) (pieces : List Bytes) :
    channel.Emits (Put.all put pieces) pieces.flatten := by
  induction pieces with
  | nil =>
    intro s ready
    exact ⟨rfl, ready, (List.append_nil _).symm⟩
  | cons data rest ih =>
    intro s ready
    obtain ⟨hnone, hready, harrived⟩ := carries data s ready
    unfold Put.all
    generalize put data s = result at hnone hready harrived ⊢
    obtain ⟨error, s'⟩ := result
    obtain rfl : error = none := hnone
    obtain ⟨hnone', hready', harrived'⟩ := ih s' hready
    refine ⟨hnone', hready', ?_⟩
    rw [harrived', harrived, List.flatten_cons, List.append_assoc]

/-- The pieces of a styled text make up the text. -/
theorem flatten_encode_spans (text : Styled) :
    (text.map fun span => Utf8.encode span.render).flatten = Utf8.encode text.render := by
  rw [Styled.render, Utf8.encode, String.toList_join, List.flatMap_assoc, List.flatMap_map,
    List.flatMap_def]
  rfl

/-- How an error would be called does not matter. -/
theorem Emits.map {ε' : Type} {act : σ → Option ε × σ} {bytes : Bytes}
    (emits : channel.Emits act bytes) (f : ε → ε') :
    channel.Emits (fun s => ((act s).1.map f, (act s).2)) bytes := by
  intro s ready
  obtain ⟨hnone, hready, harrived⟩ := emits s ready
  exact ⟨by simp [hnone], hready, harrived⟩

theorem Emits.write (carries : channel.Carries put) (text : Styled) :
    channel.Emits (Report.write put text) (Utf8.encode text.render) := by
  rw [← flatten_encode_spans]
  exact (Emits.all carries _).map WriteError.io

theorem Emits.writeJson (carries : channel.Carries put) (text : String) :
    channel.Emits (TestList.writeJson put text) (Utf8.encode (text ++ "\n")) := by
  intro s ready
  obtain ⟨hnone, hready, harrived⟩ := carries (Utf8.encode text) s ready
  unfold TestList.writeJson
  generalize put (Utf8.encode text) s = result at hnone hready harrived ⊢
  obtain ⟨error, s'⟩ := result
  obtain rfl : error = none := hnone
  obtain ⟨hnone', hready', harrived'⟩ := carries (Utf8.encode "\n") s' hready
  refine ⟨by simp [hnone'], hready', ?_⟩
  calc channel.arrived (put (Utf8.encode "\n") s').2
      = channel.arrived s' ++ Utf8.encode "\n" := harrived'
    _ = channel.arrived s ++ Utf8.encode (text ++ "\n") := by
      rw [Utf8.encode_append, ← List.append_assoc, ← harrived]

end Channel

/-- The text of a list in a format. -/
def TestList.text (list : TestList) (theme : Theme) : ListFormat → String
  | .plain => (Report.testList theme list).render
  | .json => list.manifest.text .compact ++ "\n"
  | .jsonPretty => list.manifest.text .indented ++ "\n"

theorem Channel.Emits.list {σ : Type} {channel : Channel σ} {put : Put σ}
    (carries : channel.Carries put) (list : TestList) (theme : Theme) (format : ListFormat) :
    channel.Emits (list.write put theme format) (Utf8.encode (list.text theme format)) := by
  cases format with
  | plain => exact Emits.write carries _
  | json => exact Emits.writeJson carries _
  | jsonPretty => exact Emits.writeJson carries _

/-- A sink that takes everything, and its contents. -/
def Sink.channel : Channel Sink := ⟨Takes, contents⟩

theorem Sink.carries_put : channel.Carries put := fun data _ takes => takes.write data

/-- A buffer holds just what has been written to it. -/
theorem Channel.Emits.buffer {ε : Type} {act : Sink → Option ε × Sink} {bytes : Bytes}
    (emits : Sink.channel.Emits act bytes) :
    (act .buffer).1 = none ∧ (act .buffer).2.contents = bytes := by
  obtain ⟨hnone, -, hcontents⟩ := emits .buffer fun _ _ _ => rfl
  exact ⟨hnone, hcontents⟩

/-! ## Consoles -/

namespace Console

/-- Everything that is written on either stream is taken. -/
structure Takes (c : Console) : Prop where
  stdout : c.stdout.Takes
  stderr : c.stderr.Takes

/-- A console has taken some bytes on standard output and some on standard error, and it still takes
everything. -/
structure Prints (c c' : Console) (out err : Bytes) : Prop where
  takes : c'.Takes
  shown : c'.shown = c.shown
  stdout : c'.stdout.contents = c.stdout.contents ++ out
  stderr : c'.stderr.contents = c.stderr.contents ++ err

/-- The lines that some notes are shown as. -/
def noted (shown : LogRecord → Option Bytes) (records : List LogRecord) : Bytes :=
  records.flatMap fun record => (shown record).getD []

variable {c c' c'' : Console} {out err out' err' : Bytes}

theorem Prints.refl (takes : c.Takes) : c.Prints c [] [] :=
  ⟨takes, rfl, (List.append_nil _).symm, (List.append_nil _).symm⟩

theorem Prints.trans (first : c.Prints c' out err) (second : c'.Prints c'' out' err') :
    c.Prints c'' (out ++ out') (err ++ err') := by
  refine ⟨second.takes, second.shown.trans first.shown, ?_, ?_⟩
  · rw [second.stdout, first.stdout, List.append_assoc]
  · rw [second.stderr, first.stderr, List.append_assoc]

/-- Standard output that takes everything takes some more. -/
theorem write_stdout_of_takes (takes : c.stdout.Takes) (data : Bytes) :
    ∃ sink, c.write .stdout data = (none, { c with stdout := sink }) ∧ sink.Takes ∧
      sink.contents = c.stdout.contents ++ data := by
  obtain ⟨hnone, htakes, hcontents⟩ := takes.write data
  refine ⟨_, ?_, htakes, hcontents⟩
  rw [← hnone]
  rfl

theorem Takes.prints_write_stderr (takes : c.Takes) (data : Bytes) :
    c.Prints (c.write .stderr data).2 [] data := by
  obtain ⟨-, htakes, hcontents⟩ := takes.stderr.write data
  exact ⟨⟨takes.stdout, htakes⟩, rfl, (List.append_nil _).symm, hcontents⟩

theorem noted_append (shown : LogRecord → Option Bytes) (first others : List LogRecord) :
    noted shown (first ++ others) = noted shown first ++ noted shown others := List.flatMap_append

/-- What has been noted so far does not matter. -/
theorem Prints.of_journal {journal : List LogRecord}
    (prints : Prints { c with journal := journal } c' out err) : c.Prints c' out err :=
  ⟨prints.takes, prints.shown, prints.stdout, prints.stderr⟩

theorem Takes.prints_note (takes : c.Takes) (record : LogRecord) :
    c.Prints (c.note record) [] (noted c.shown [record]) := by
  have journalled : Takes { c with journal := c.journal ++ [record] } :=
    ⟨takes.stdout, takes.stderr⟩
  unfold note noted
  simp only [List.flatMap_singleton]
  generalize c.shown record = line
  cases line with
  | none => exact (Prints.refl journalled).of_journal
  | some line => exact (journalled.prints_write_stderr line).of_journal

theorem Takes.prints_noteAll (records : List LogRecord) :
    ∀ {c : Console}, c.Takes → c.Prints (c.noteAll records) [] (noted c.shown records) := by
  induction records with
  | nil =>
    intro c takes
    exact .refl takes
  | cons record rest ih =>
    intro c takes
    have first := takes.prints_note record
    have others := ih first.takes
    rw [first.shown] at others
    rw [← List.singleton_append, noted_append]
    exact first.trans others

end Console

/-! ## Standard output through a buffer -/

namespace Buffered

/-- Standard output of a console that is buffered: what it has taken and what is still pending make
up what arrives, and the rest of the console stays as it was. -/
def channel (c : Console) : Channel Buffered where
  Ready b := b.console.stdout.Takes ∧ b.console.stderr = c.stderr ∧ b.console.shown = c.shown
  arrived b := b.console.stdout.contents ++ b.pending

variable {c : Console}

theorem emits_flush : (channel c).Emits flush [] := by
  intro b ready
  obtain ⟨takes, hstderr, hshown⟩ := ready
  rw [List.append_nil]
  unfold flush
  split
  · exact ⟨rfl, ⟨takes, hstderr, hshown⟩, rfl⟩
  · obtain ⟨sink, hwrite, htakes, hcontents⟩ := Console.write_stdout_of_takes takes b.pending
    simp only [hwrite]
    refine ⟨trivial, ⟨htakes, hstderr, hshown⟩, ?_⟩
    show sink.contents ++ [] = b.console.stdout.contents ++ b.pending
    rw [hcontents, List.append_nil]

theorem flush_pending {b : Buffered} (takes : b.console.stdout.Takes) :
    b.flush.2.pending = [] := by
  unfold flush
  split
  · assumption
  · obtain ⟨sink, hwrite, -, -⟩ := Console.write_stdout_of_takes takes b.pending
    simp only [hwrite]

/-- What does not fit into the buffer comes after what was waiting in it. -/
theorem carries_put : (channel c).Carries put := by
  intro data b ready
  unfold put write
  split
  · exact ⟨rfl, ready, (List.append_assoc _ _ _).symm⟩
  · obtain ⟨hnone, hready, harrived⟩ := emits_flush b ready
    have hpending := flush_pending ready.1
    generalize b.flush = flushed at hnone hready harrived hpending ⊢
    obtain ⟨error, b'⟩ := flushed
    obtain rfl : error = none := hnone
    replace harrived : b'.console.stdout.contents =
        b.console.stdout.contents ++ b.pending := by
      have hpending' : b'.pending = [] := hpending
      simpa [channel, hpending'] using harrived
    simp only []
    split
    · refine ⟨rfl, hready, ?_⟩
      show b'.console.stdout.contents ++ data = _
      rw [harrived]
      rfl
    · obtain ⟨sink, hwrite, htakes, hcontents⟩ := Console.write_stdout_of_takes hready.1 data
      simp only [hwrite]
      refine ⟨trivial, ⟨htakes, hready.2⟩, ?_⟩
      have hpending' : b'.pending = [] := hpending
      show sink.contents ++ b'.pending = _
      rw [hcontents, hpending', List.append_nil, harrived]
      rfl

/-- What is written through a fresh buffer and handed on stands on standard output. -/
theorem flush_prints {ε : Type} {act : Buffered → Option ε × Buffered} {bytes : Bytes}
    (emits : (channel c).Emits act bytes) (takes : c.Takes) :
    let b := (act (.ofConsole c)).2
    (act (.ofConsole c)).1 = none ∧ b.flush.1 = none ∧ b.flush.2.pending = [] ∧
      c.Prints b.flush.2.console bytes [] := by
  intro b
  obtain ⟨hnone, hready, harrived⟩ := emits (.ofConsole c) ⟨takes.stdout, rfl, rfl⟩
  obtain ⟨hflushed, ⟨htakes, hstderr, hshown⟩, hpassed⟩ := emits_flush b hready
  have hpending : b.flush.2.pending = [] := flush_pending hready.1
  refine ⟨hnone, hflushed, hpending, ⟨htakes, ?_⟩, hshown, ?_, ?_⟩
  · rw [hstderr]
    exact takes.stderr
  · calc b.flush.2.console.stdout.contents
        = (channel c).arrived b.flush.2 := by simp [channel, hpending]
      _ = c.stdout.contents ++ bytes := by
        rw [hpassed, harrived]
        simp [channel, ofConsole]
  · rw [hstderr, List.append_nil]

/-- A buffer with nothing pending has nothing to hand on when it is given up. -/
theorem close_of_pending {b : Buffered} (pending : b.pending = []) : b.close = b.console := by
  rw [close, flush, if_pos pending]

end Buffered

/-! ## Reports and lists -/

/-- The text of an event, as it is written. -/
def Report.text (theme : Theme) (e : Event) : Bytes := Utf8.encode (Report.event theme e).render

namespace CommandLine

open Buffered

variable {console : Console}

/-- A reporter writes out the text of an event, and nothing else. -/
theorem reporter_prints (takes : console.Takes) (theme : Theme) (e : Event) :
    (reporter theme e (console, [])).2 = none ∧ (reporter theme e (console, [])).1.2 = [] ∧
      console.Prints (reporter theme e (console, [])).1.1 (Report.text theme e) [] := by
  obtain ⟨hnone, hflushed, hpending, prints⟩ :=
    flush_prints (Channel.Emits.write carries_put (Report.event theme e)) takes
  unfold reporter Report.writeEvent
  simp only []
  change (Report.write put (Report.event theme e) ⟨console, []⟩).1 = none at hnone
  rw [ofConsole] at hflushed hpending prints
  generalize Report.write put (Report.event theme e) ⟨console, []⟩ = result
    at hnone hflushed hpending prints ⊢
  obtain ⟨error, b⟩ := result
  obtain rfl : error = none := hnone
  exact ⟨by simp [hflushed], hpending, prints⟩

/-- What is written through a buffer of its own is written out when the buffer is given up. -/
theorem writeOut_prints {write : Buffered → Option WriteError × Buffered} {bytes : Bytes}
    (emits : (channel console).Emits write bytes) (takes : console.Takes) :
    (writeOut write console).1 = none ∧ console.Prints (writeOut write console).2 bytes [] := by
  obtain ⟨hnone, hflushed, hpending, prints⟩ := flush_prints emits takes
  unfold writeOut
  generalize write (.ofConsole console) = result at hnone hflushed hpending prints ⊢
  obtain ⟨error, b⟩ := result
  obtain rfl : error = none := hnone
  simp only [hflushed, close_of_pending hpending]
  exact ⟨rfl, prints⟩

end CommandLine

end BenchHarness
