import RemoteFiles.Outcome
import RemoteFiles.Proofs.Json.Records

/-!
# The answer about an execution

The peer writes an execution as a document, puts the text into an envelope and writes that as a
document too.  Both layers are undone, whatever the texts in them hold, and the outcome is what the
first output says.

## Main definitions

* `Execution.answer` — the body of the answer about an execution.

## Main results

* `Output.reads`, `Execution.reads`, `Envelope.reads` — every record is read from its document.
* `Execution.decode_answer` — **an answer is decoded to what the first output says.**
-/

namespace RemoteFiles

open Json

/-! ### The records -/

/-- An output is read from its document. -/
theorem Output.reads (o : Output) :
    Reads Output.schema.read (Utf8.bytes o.toJson.chars) o := by
  have hfills : Schema.Fills Output.schema Output.schema.blank
      [("output_type", Utf8.bytes (quote o.kind)), ("text", Utf8.bytes (quote o.text)),
        ("ename", Utf8.bytes (quote o.exception)), ("evalue", Utf8.bytes (quote o.reason))]
      ⟨some o.kind, some o.text, some o.exception, some o.reason⟩ := by
    refine .cons rfl rfl (reads_field (reads_text o.kind) _) ?_
    refine .cons rfl rfl (reads_field (reads_text o.text) _) ?_
    refine .cons rfl rfl (reads_field (reads_text o.exception) _) ?_
    refine .cons rfl rfl (reads_field (reads_text o.reason) _) ?_
    exact .nil _
  rw [Output.toJson, bytes_record]
  exact Schema.reads_record hfills rfl

theorem Output.startsValue (o : Output) : StartsValue (Utf8.bytes o.toJson.chars) := by
  rw [Output.toJson, bytes_record]
  exact startsValue_recordText _

namespace Execution

/-- The outputs of an execution are read from the document that holds them. -/
theorem reads_data (outputs : List Output) :
    Reads dataSchema.read
      (Utf8.bytes (Value.record [("outputs", .list (outputs.map Output.toJson))]).chars)
      outputs := by
  have houtputs : Reads (readList Output.schema.read)
      (Utf8.bytes (Value.list (outputs.map Output.toJson)).chars) outputs := by
    rw [bytes_list, List.map_map]
    exact reads_list fun o _ => ⟨o.startsValue, o.reads⟩
  have hfills : Schema.Fills dataSchema dataSchema.blank
      [("outputs", Utf8.bytes (Value.list (outputs.map Output.toJson)).chars)] (some outputs) :=
    .cons rfl rfl (reads_field houtputs _) (.nil _)
  rw [bytes_record]
  exact Schema.reads_record hfills rfl

/-- An execution is read from its document. -/
theorem reads (x : Execution) : Reads schema.read (Utf8.bytes x.toJson.chars) x := by
  have hfills : Schema.Fills schema schema.blank
      [("success", Utf8.bytes (Value.flag x.success).chars),
        ("data", Utf8.bytes
          (Value.record [("outputs", .list (x.outputs.map Output.toJson))]).chars)]
      ⟨some x.success, some x.outputs⟩ := by
    refine .cons rfl rfl (reads_field (reads_flag x.success) _) ?_
    refine .cons rfl rfl (reads_field (reads_data x.outputs) _) ?_
    exact .nil _
  rw [toJson, bytes_record]
  exact Schema.reads_record hfills rfl

end Execution

/-- An envelope is read from its document. -/
theorem Envelope.reads (e : Envelope) :
    Reads Envelope.schema.read (Utf8.bytes e.toJson.chars) e := by
  have hinner : Reads Envelope.resultSchema.read
      (Utf8.bytes (Value.record [("result", .text e.result)]).chars) e.result := by
    rw [bytes_record]
    exact Schema.reads_record (.cons rfl rfl (reads_field (reads_text e.result) _) (.nil _)) rfl
  rw [Envelope.toJson, bytes_record]
  exact Schema.reads_record (.cons rfl rfl (reads_field hinner _) (.nil _)) rfl

/-! ### The answer -/

namespace Execution

/-- The body of the answer about an execution. -/
def answer (x : Execution) : List UInt8 := Utf8.encode (Envelope.toJson ⟨x.toJson.write⟩).write

/-- The outer layer of an answer. -/
theorem decode_envelope (x : Execution) :
    decode Envelope.schema.read x.answer = .ok ⟨x.toJson.write⟩ := by
  rw [answer, Value.write, Utf8.encode_ofList]
  exact (Envelope.reads _).decode

/-- The inner layer of an answer. -/
theorem decode_result (x : Execution) :
    decode schema.read (Utf8.encode x.toJson.write) = .ok x := by
  rw [Value.write, Utf8.encode_ofList]
  exact x.reads.decode

/-- An answer is decoded to the outcome of the execution that it is about. -/
theorem decode_answer_eq_outcome (x : Execution) : Outcome.decode x.answer = .ok x.outcome := by
  rw [Outcome.decode, decode_envelope]
  simp only [decode_result]

/-- **An answer is decoded to what the first output says.**  The exit code is that of the flag; the
text is the first output's own, or after a failure without one, its exception.  Neither the kind
of the first output nor the outputs after it play a part. -/
theorem decode_answer (x : Execution) :
    Outcome.decode x.answer = .ok
      { text := match x.outputs with
          | [] => ""
          | o :: _ =>
            if x.success then o.text
            else if o.text ≠ "" then o.text
            else if o.exception ≠ "" then o.exception ++ ": " ++ o.reason
            else ""
        exitCode := if x.success then 0 else -1 } ∧
    ∀ (success : Bool) (o : Output) (kind : String) (later later' : List Output),
      Outcome.decode (answer ⟨success, { o with kind := kind } :: later⟩) =
        Outcome.decode (answer ⟨success, o :: later'⟩) := by
  refine ⟨?_, ?_⟩
  · -- the flag decides first, and then whether there is an output at all
    obtain ⟨success, outputs⟩ := x
    rw [decode_answer_eq_outcome]
    cases success with
    | true => cases outputs <;> rfl
    | false => cases outputs <;> rfl
  · intro success o kind later later'
    rw [decode_answer_eq_outcome, decode_answer_eq_outcome]
    cases success <;> rfl

end Execution
end RemoteFiles
