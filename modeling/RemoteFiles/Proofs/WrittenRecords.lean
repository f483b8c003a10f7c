import RemoteFiles.Proofs.Call.Records
import RemoteFiles.Proofs.Json.Printing
import RemoteFiles.Proofs.Outcome

/-!
# Records written and read back

Each of the four kinds of records is read back from the document that it is written as, field by
field, and the document is one line.  So an output with one entry or one hit on each line is read
back as just these.  Entries are taken without a time, which is a number with a fraction.

## Main results

* `Entry.roundTrips`, `Hit.roundTrips`, `Envelope.roundTrips`, `Execution.roundTrips` — the four
  kinds, one by one.
* `records_round_trip` — **records are read back from what is written, and from what is printed.**
-/

namespace RemoteFiles

open Json

/-! ### Entries and hits -/

/-- An entry without a time is read from its document. -/
theorem Entry.reads {e : Entry} (h : e.modified = none) :
    Reads Entry.schema.read (Utf8.bytes e.toJson.chars) e := by
  obtain ⟨path, isDirectory, size, modified⟩ := e
  obtain rfl : modified = none := h
  have hfills : Schema.Fills Entry.schema Entry.schema.blank
      [("path", Utf8.bytes (quote path)), ("is_dir", Utf8.bytes (Value.flag isDirectory).chars),
        ("size", Utf8.bytes (Value.count size.toNat).chars)]
      ⟨some path, some isDirectory, some size, none⟩ := by
    refine .cons rfl rfl (reads_field (reads_text path) _) ?_
    refine .cons rfl rfl (reads_field (reads_flag isDirectory) _) ?_
    refine .cons rfl rfl (reads_field (reads_count size) _) ?_
    exact .nil _
  rw [Entry.toJson, bytes_record]
  exact Schema.reads_record hfills rfl

theorem Entry.isExact_toJson {e : Entry} (h : e.modified = none) : e.toJson.IsExact := by
  rw [Entry.toJson, h]
  refine .record fun m hm => ?_
  simp only [Option.map_none, Option.toList_none, List.append_nil, List.mem_cons, List.not_mem_nil,
    or_false] at hm
  rcases hm with rfl | rfl | rfl
  · exact .text _
  · exact .flag _
  · exact .count e.size.toNat_lt

/-- **Entries without a time make the round trip.** -/
theorem Entry.roundTrips : Entry.schema.RoundTrips Entry.toJson (·.modified = none) :=
  .of_reads (fun _ => Entry.reads) (fun _ => ⟨_, rfl⟩) fun _ => Entry.isExact_toJson

/-- A hit is read from its document. -/
theorem Hit.reads (h : Hit) : Reads Hit.schema.read (Utf8.bytes h.toJson.chars) h := by
  have hfills : Schema.Fills Hit.schema Hit.schema.blank
      [("Path", Utf8.bytes (quote h.path)), ("Line", Utf8.bytes (Value.count h.line.toNat).chars),
        ("Content", Utf8.bytes (quote h.content))]
      ⟨some h.path, some h.line, some h.content⟩ := by
    refine .cons rfl rfl (reads_field (reads_text h.path) _) ?_
    refine .cons rfl rfl (reads_field (reads_count h.line) _) ?_
    refine .cons rfl rfl (reads_field (reads_text h.content) _) ?_
    exact .nil _
  rw [Hit.toJson, bytes_record]
  exact Schema.reads_record hfills rfl

theorem Hit.isExact_toJson (h : Hit) : h.toJson.IsExact := by
  refine .record fun m hm => ?_
  simp only [List.mem_cons, List.not_mem_nil, or_false] at hm
  rcases hm with rfl | rfl | rfl
  · exact .text _
  · exact .count h.line.toNat_lt
  · exact .text _

/-- **Hits make the round trip.** -/
theorem Hit.roundTrips : Hit.schema.RoundTrips Hit.toJson fun _ => True :=
  .of_reads (fun h _ => h.reads) (fun _ => ⟨_, rfl⟩) fun h _ => h.isExact_toJson

/-! ### Envelopes and executions -/

theorem Envelope.isExact_toJson (e : Envelope) : e.toJson.IsExact := by
  refine .record (List.forall_mem_singleton.mpr ?_)
  refine .record (List.forall_mem_singleton.mpr ?_)
  exact .text _

/-- **Envelopes make the round trip.** -/
theorem Envelope.roundTrips : Envelope.schema.RoundTrips Envelope.toJson fun _ => True :=
  .of_reads (fun e _ => e.reads) (fun _ => ⟨_, rfl⟩) fun e _ => e.isExact_toJson

theorem Output.isExact_toJson (o : Output) : o.toJson.IsExact := by
  refine .record fun m hm => ?_
  simp only [List.mem_cons, List.not_mem_nil, or_false] at hm
  rcases hm with rfl | rfl | rfl | rfl <;> exact .text _

theorem Execution.isExact_toJson (x : Execution) : x.toJson.IsExact := by
  refine .record fun m hm => ?_
  simp only [List.mem_cons, List.not_mem_nil, or_false] at hm
  rcases hm with rfl | rfl
  · exact .flag _
  · refine .record (List.forall_mem_singleton.mpr (.list fun v hv => ?_))
    obtain ⟨o, _, rfl⟩ := List.mem_map.mp hv
    exact o.isExact_toJson

/-- **Executions make the round trip.** -/
theorem Execution.roundTrips : Execution.schema.RoundTrips Execution.toJson fun _ => True :=
  .of_reads (fun x _ => x.reads) (fun _ => ⟨_, rfl⟩) fun x _ => x.isExact_toJson

/-! ### Printed records -/

/-- Nothing is left out of an output that is printed of hits. -/
theorem Hit.rejects_printed {hs : List Hit} {output : String}
    (h : Text.IsPrinted (hs.map fun h => h.toJson.write) output) : Hit.rejects output = [] := by
  have hkept : ∀ h ∈ hs, True := fun _ _ => trivial
  have hcount := Hit.length_readAll_add_length_rejects output
  rw [Hit.readAll, Hit.roundTrips.decodeLines_printed hkept h,
    Hit.roundTrips.filledLines_printed hkept h, List.length_map] at hcount
  exact List.length_eq_zero_iff.mp (by omega)

/-- **Records are read back from what is written, and from what is printed.**  Entries without a time,
hits, envelopes and executions are read back from their documents, each of which is a line between
braces.  An output with one entry on each line is read as these entries, and one with one hit on each
line as these hits, by a search too, which then warns of nothing. -/
theorem records_round_trip :
    Entry.schema.RoundTrips Entry.toJson (·.modified = none) ∧
    Hit.schema.RoundTrips Hit.toJson (fun _ => True) ∧
    Envelope.schema.RoundTrips Envelope.toJson (fun _ => True) ∧
    Execution.schema.RoundTrips Execution.toJson (fun _ => True) ∧
    (∀ (es : List Entry) (output : String), (∀ e ∈ es, e.modified = none) →
      Text.IsPrinted (es.map fun e => e.toJson.write) output → Entry.readAll output = es) ∧
    ∀ (hs : List Hit) (output : String), Text.IsPrinted (hs.map fun h => h.toJson.write) output →
      Hit.readAll output = hs ∧
      (Hit.gather (Text.lines output) : Run FileError (List Hit)) = ⟨[], [], .ok hs⟩ := by
  refine ⟨Entry.roundTrips, Hit.roundTrips, Envelope.roundTrips, Execution.roundTrips, ?_, ?_⟩
  · intro es output hes houtput
    exact Entry.roundTrips.decodeLines_printed hes houtput
  · intro hs output houtput
    have hread : Hit.readAll output = hs :=
      Hit.roundTrips.decodeLines_printed (fun _ _ => trivial) houtput
    refine ⟨hread, ?_⟩
    rw [Hit.gather_lines, hread, Hit.rejects_printed houtput]
    rfl

/-- A hit with the largest number of a line, a line feed and quotes is printed on one line and read
back from it. -/
theorem hit_round_trip :
    let h : Hit := ⟨"a\nb", 18446744073709551615, "\"\x00\""⟩
    h.toJson.write = "\x7b\"Path\":\"a\\nb\",\"Line\":18446744073709551615,\"Content\":" ++
      "\"\\\"\\u0000\\\"\"\x7d" ∧
    decode Hit.schema.read (Utf8.encode h.toJson.write) = .ok h ∧
    Hit.readAll (h.toJson.write ++ "\n" ++ h.toJson.write) = [h, h] := by
  intro h
  obtain ⟨-, hhit, -, -, -, hprinted⟩ := records_round_trip
  have houtput : Text.IsPrinted ([h, h].map fun h => h.toJson.write)
      (h.toJson.write ++ "\n" ++ h.toJson.write) := by
    have hlines : Text.IsPrinted ([h, h].map fun h => h.toJson.write)
        ("\n".intercalate ([h, h].map fun h => h.toJson.write)) := .separated
    rwa [List.map_cons, List.map_singleton, String.intercalate_cons_cons,
      String.intercalate_singleton] at hlines
  exact ⟨by decide +kernel, hhit.decode_write trivial, (hprinted [h, h] _ houtput).1⟩

end RemoteFiles
