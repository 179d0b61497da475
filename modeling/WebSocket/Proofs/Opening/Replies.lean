import WebSocket.Opening.Negotiation
import WebSocket.Proofs.Opening.Reading
import WebSocket.Text.Utf8

/-!
# How replies look to a client

A client finds the end of a reply where it finds the first blank line, and reads the octets up to
there as text.  Every reply has its only blank line at its end and is ASCII, so a client gets the
reply as a whole, and as the text that was written:

    HeadEnds (negotiate request).reply (negotiate request).reply.length           (headEnds_reply)
    Bytes.ofString (negotiate request).reply.toStringRepaired = (negotiate request).reply
                                                                        (ofString_repaired_reply)
-/

namespace WebSocket.Opening

/-- A text that is all of one line after its last three octets, and then a blank line, has no other
blank line. -/
theorem headEnds_line {start line : Bytes} (hstart : Searched start (start.length - 3))
    (hline : 13 ∉ start.drop (start.length - 3) ++ line) :
    HeadEnds (start ++ line ++ blankLine) (start ++ line ++ blankLine).length := by
  refine ⟨(start ++ line).length, List.length_append, ?_, ?_⟩
  · simp only [BlankLineAt, List.drop_left, List.prefix_refl]
  · intro m hm hat
    rcases Nat.lt_or_ge m (start.length - 3) with hearly | hlate
    · rw [List.append_assoc, blankLineAt_append (by omega)] at hat
      exact hstart m hearly hat
    · -- The octet at `m` would be a CR.
      apply hline
      have hget : (start ++ line)[m]? = some 13 := by
        obtain ⟨rest, hrest⟩ := hat
        have hwhole : (start ++ line ++ blankLine)[m]? = (start ++ line)[m]? :=
          List.getElem?_append_left hm
        rw [← hwhole, ← Nat.add_zero m, ← List.getElem?_drop, ← hrest]
        rfl
      rw [← List.drop_append_of_le_length (by omega)]
      refine List.mem_of_getElem? (i := m - (start.length - 3)) ?_
      rw [List.getElem?_drop, Nat.add_sub_cancel' hlate]
      exact hget

/-- What comes before the key in the reply that opens a session. -/
def acceptanceStart : String :=
  "HTTP/1.1 101 Switching Protocols\r\nUpgrade: websocket\r\nConnection: Upgrade\r\n"
    ++ "Sec-WebSocket-Accept: "

theorem ofString_acceptance (key : String) :
    Bytes.ofString (acceptance key) =
      Bytes.ofString acceptanceStart ++ Bytes.ofString (acceptKey key) ++ blankLine := by
  have hblank : Bytes.ofString "\r\n\r\n" = blankLine := by decide +kernel
  have hsplit : acceptance key = acceptanceStart ++ acceptKey key ++ "\r\n\r\n" := rfl
  rw [hsplit, Bytes.ofString_append (acceptanceStart ++ acceptKey key) "\r\n\r\n",
    Bytes.ofString_append acceptanceStart (acceptKey key), hblank]

/-- The proof that the key was read is plain text within one line. -/
theorem plain_acceptKey (key : String) :
    ∀ octet ∈ Bytes.ofString (acceptKey key), octet < 0x80 ∧ octet ≠ 13 := by
  have hplain : ('=' :: Base64.alphabet).all fun c => (String.utf8EncodeChar c).all fun octet =>
      decide (octet < 0x80 ∧ octet ≠ 13) := by
    decide +kernel
  intro octet hmem
  rw [acceptKey, Bytes.ofString_ofList, List.mem_flatMap] at hmem
  obtain ⟨c, hc, hoctet⟩ := hmem
  have hone := List.all_eq_true.mp hplain c (Base64.mem_encode hc)
  exact of_decide_eq_true (List.all_eq_true.mp hone octet hoctet)

theorem headEnds_acceptance (key : String) :
    HeadEnds (Bytes.ofString (acceptance key)) (Bytes.ofString (acceptance key)).length := by
  rw [ofString_acceptance]
  refine headEnds_line ?_ ?_
  · show ∀ m < (Bytes.ofString acceptanceStart).length - 3,
      ¬ blankLine <+: (Bytes.ofString acceptanceStart).drop m
    decide +kernel
  · intro hmem
    rcases List.mem_append.mp hmem with hmem | hmem
    · have hstart : 13 ∉ (Bytes.ofString acceptanceStart).drop
          ((Bytes.ofString acceptanceStart).length - 3) := by
        decide +kernel
      exact hstart hmem
    · exact (plain_acceptKey key 13 hmem).2 rfl

theorem isAscii_acceptance (key : String) : (Bytes.ofString (acceptance key)).IsAscii := by
  rw [ofString_acceptance]
  have hstart : (Bytes.ofString acceptanceStart).IsAscii := by decide +kernel
  have hkey : (Bytes.ofString (acceptKey key)).IsAscii := fun octet hmem =>
    (plain_acceptKey key octet hmem).1
  have hblank : Bytes.IsAscii blankLine := by decide
  exact (hstart.append hkey).append hblank

/-- A reply is some text in ASCII, with its only blank line at its end. -/
theorem exists_reply (request : Bytes) : ∃ text,
    (negotiate request).reply = Bytes.ofString text ∧ (Bytes.ofString text).IsAscii ∧
      HeadEnds (Bytes.ofString text) (Bytes.ofString text).length := by
  unfold negotiate
  cases checkRequest request with
  | ok key => exact ⟨acceptance key, rfl, isAscii_acceptance key, headEnds_acceptance key⟩
  | error error =>
    refine ⟨error.reply, rfl, ?_⟩
    rw [← blankLine?_eq_some_iff]
    unfold OpeningError.reply
    split
    · decide +kernel
    · decide +kernel

theorem headEnds_reply (request : Bytes) :
    HeadEnds (negotiate request).reply (negotiate request).reply.length := by
  obtain ⟨text, hreply, -, hends⟩ := exists_reply request
  rw [hreply]
  exact hends

theorem ofString_repaired_reply (request : Bytes) :
    Bytes.ofString (negotiate request).reply.toStringRepaired = (negotiate request).reply := by
  obtain ⟨text, hreply, hascii, -⟩ := exists_reply request
  rw [hreply, Bytes.toStringRepaired_ofString hascii]

end WebSocket.Opening
