import Specimen.Proofs.Exchanges

/-!
# The lines of a decoded stream

A listener cuts a stream into lines while it is still bytes, and decodes
each line by itself. So a line that ends in the middle of a character is
decoded without what comes after it, and whoever decodes the whole stream
sees that character and the next line's beginning together. Nothing comes of
the difference: the byte of a line's end continues no character, so what is
stray in front of it is stray either way (`lenientChars_append_lineEnd`), and
cutting and decoding may change places (`cut_lenientChars`). Hence a listener
gives the messages of the text that the whole stream shows
(`Report.messages_of_text`).
-/

namespace Specimen

/-- **Cutting and decoding may change places.** The byte that ends a line
is a character by itself and never within an encoding, and a part that is
cut off by it is as stray as at the end of the bytes. -/
theorem cut_lenientChars (bytes : List UInt8) :
    cut (· == '\n') (lenientChars bytes) = (cut Report.isLineEnd bytes).map lenientChars := by
  by_cases hend : 0x0a ∈ bytes
  · obtain ⟨a, b, hsplit⟩ := List.append_of_mem hend
    have hlength : bytes.length = a.length + (b.length + 1) := by
      rw [hsplit, List.length_append, List.length_cons]
    have ha : a.length < bytes.length := by omega
    have hb : b.length < bytes.length := by omega
    have hchars : cut (· == '\n') (lenientChars a ++ '\n' :: lenientChars b)
        = cut (· == '\n') (lenientChars a) ++ cut (· == '\n') (lenientChars b) :=
      cut_append_cons_of_sep rfl _ _
    have hbytes : cut Report.isLineEnd (a ++ 0x0a :: b)
        = cut Report.isLineEnd a ++ cut Report.isLineEnd b := cut_append_cons_of_sep rfl _ _
    rw [hsplit, lenientChars_append_lineEnd, hchars, hbytes, List.map_append, cut_lenientChars a,
      cut_lenientChars b]
  · -- neither the bytes nor their characters have a line's end
    have hbytes : ∀ b ∈ bytes, Report.isLineEnd b = false := fun b hb =>
      beq_eq_false_iff_ne.mpr fun h => hend (h ▸ hb)
    have hchars : ∀ c ∈ lenientChars bytes, (c == '\n') = false := fun c hc =>
      beq_eq_false_iff_ne.mpr fun h => hend (lineEnd_mem_of_mem_lenientChars (h ▸ hc))
    rw [cut_of_forall hbytes, cut_of_forall hchars]
    rfl
termination_by bytes.length

namespace Report

/-- **The messages of a text**, one for each line that is not blank. -/
def textMessages (text : List Char) : List Message :=
  (cut (· == '\n') text).filterMap Message.ofLine?

/-- The messages of bytes are those of the text that they show. -/
theorem messages_eq_textMessages (bytes : List UInt8) :
    messages bytes = textMessages (lenientChars bytes) := by
  rw [textMessages, cut_lenientChars, List.filterMap_map]
  rfl

/-- **Cutting before decoding loses nothing.** Bytes show what the
characters and the stray parts that they fall into show. Decoding passes a
line's end, so the lines of the text that some bytes show are what their
lines show. The messages a listener gives of a stream, in whatever chunks it
takes it, and the messages that every subscriber hears in an exchange are
those of the text that the whole stream shows; with the byte that ends it,
each line would have the same. -/
theorem messages_of_text :
    (∀ bytes chars, lenientChars bytes = chars ↔
      ∃ parts, Utf8Split bytes parts ∧ parts.map Utf8Part.shown = chars) ∧
    (∀ a b, lenientChars (a ++ 0x0a :: b) = lenientChars a ++ '\n' :: lenientChars b) ∧
    (∀ bytes, cut (· == '\n') (lenientChars bytes) = (cut isLineEnd bytes).map lenientChars) ∧
    (∀ chunks, Listener.start.hear chunks = textMessages (lenientChars chunks.flatten) ∧
      Listener.start.hear chunks = (cut isLineEnd chunks.flatten).filterMap fun line =>
        Message.ofLine? (lenientChars (line ++ [0x0a]))) ∧
    (∀ p n moves x, (Exchange.begin p n).run moves = some x → x.Ended →
      x.heard = deliverToAll n
        (textMessages (lenientChars (p.bytes ++ moves.flatMap Move.written)))) := by
  refine ⟨fun _ _ => lenientChars_eq_iff, lenientChars_append_lineEnd, cut_lenientChars,
    fun chunks => ⟨?_, ?_⟩, fun p n moves x hrun hended => ?_⟩
  · rw [Listener.hear_start, messages_eq_textMessages]
  · rw [Listener.hear_start, messages, messagesOf]
    exact List.filterMap_congr fun line _ => (ofLine?_lineEnd line).symm
  · rw [← messages_eq_textMessages]
    exact Exchange.heard_of_ended hrun hended

/-- A stream with a character that a line's end cuts short, and bytes that
begin none behind it: each is shown as one replacement. -/
theorem messages_of_text_truncated :
    let stream : List UInt8 := [0x41, 0x20, 0xe2, 0x82, 0x0a, 0x80, 0xf0, 0x9f, 0x42]
    let moves : List Move :=
      [.openWriter, .write stream, .stop, .look, .read 3, .read 4096, .call, .read 1, .call]
    let first : Message := ⟨.unknown, "A", ["\ufffd"]⟩
    let second : Message := ⟨.unknown, "\ufffd\ufffdB", []⟩
    ∃ x, (Exchange.begin .fresh 1).run moves = some x ∧ x.Ended ∧
      x.heard = [(0, first), (0, second)] := by
  intro stream moves first second
  have hends : ((Exchange.begin .fresh 1).run moves).map (fun x => decide x.Ended) = some true := by
    decide +kernel
  obtain ⟨x, hrun, hended⟩ := Option.map_eq_some_iff.mp hends
  have hended : x.Ended := of_decide_eq_true hended
  have htext : textMessages (lenientChars (Pipe.fresh.bytes ++ moves.flatMap Move.written))
      = [first, second] := by
    decide +kernel
  have hheard := messages_of_text.2.2.2.2 .fresh 1 moves x hrun hended
  rw [htext] at hheard
  exact ⟨x, hrun, hended, hheard⟩

end Report

end Specimen
