import WebSocket.Transport.Pipe

/-!
# Sources

A source is what a client reads from: octets that come in order, cut up in whatever way.  The
client's end of a link is one (`Source.link`), which has nothing for the present when the server is
silent.  Another is a list of pieces (`Source.pieces`), of which a read takes one at most; it ends
after the last.
-/

namespace WebSocket

/-- What a client reads from. -/
structure Source (σ : Type) where
  /-- Take up to so many octets. -/
  read : σ → Nat → σ × Pipe.Taken
  /-- The octets that are there to be read. -/
  content : σ → Bytes
  /-- A read that may take something and takes octets takes at least one, off the front. -/
  takes : ∀ {s s' : σ} {most : Nat} {data : Bytes}, 0 < most →
    read s most = (s', .octets data) → data ≠ [] ∧ data ++ content s' = content s

namespace Source

variable {σ : Type}

/-- Every read takes octets off the source. -/
theorem length_lt_of_read (source : Source σ) {s s' : σ} {most : Nat} {data : Bytes}
    (positive : 0 < most) (h : source.read s most = (s', .octets data)) :
    (source.content s').length < (source.content s).length := by
  obtain ⟨hdata, hcontent⟩ := source.takes positive h
  rw [← hcontent, List.length_append]
  have := List.length_pos_iff.mpr hdata
  omega

/-- A link from the client's end. -/
def link : Source Link where
  read joined most :=
    let (pipe, taken) := joined.outbound.read most
    ({ joined with outbound := pipe }, taken)
  content joined := joined.outbound.content.toList
  takes := by
    intro joined later most data positive h
    cases hread : joined.outbound.read most with
    | mk pipe taken =>
      rw [hread] at h
      obtain ⟨rfl, rfl⟩ := Prod.mk.inj h
      have hcontent := Pipe.read_octets hread
      refine ⟨?_, hcontent⟩
      rintro rfl
      have hless := Pipe.size_lt_of_read positive hread
      rw [Fifo.size_eq_length, Fifo.size_eq_length, ← hcontent] at hless
      exact absurd hless (Nat.lt_irrefl _)

/-- Take up to so many octets off the first piece that has any. -/
def readPieces : List Bytes → Nat → List Bytes × Pipe.Taken
  | [], _ => ([], .ended)
  | [] :: later, most => readPieces later most
  | piece :: later, most => (piece.drop most :: later, .octets (piece.take most))

/-- Pieces of a stream, of which the last is also its end. -/
def pieces : Source (List Bytes) where
  read := readPieces
  content := List.flatten
  takes := by
    intro all left most data positive h
    fun_induction readPieces all most with
    | case1 => cases h
    | case2 later most ih => exact ih positive h
    | case3 piece later most hpiece =>
      obtain ⟨rfl, hdata⟩ := Prod.mk.inj h
      obtain rfl := Pipe.Taken.octets.inj hdata
      constructor
      · intro hnone
        rcases List.take_eq_nil_iff.mp hnone with hmost | hnil
        · omega
        · exact hpiece hnil
      · rw [List.flatten_cons, List.flatten_cons, ← List.append_assoc, List.take_append_drop]

end Source

end WebSocket
