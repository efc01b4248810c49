/- Drawing an orchestration keeps the ids of its draft, at any nesting of the elements. -/
import ExportDiff.Flow.ProjectLayout
import ExportDiff.Proofs.Flow.Draft

namespace ExportDiff.Flow
open Draft Xml

theorem drawCatchAlls_draws {pending : List String} {d : Draft} {parent : Option String}
    (ds : Declared) (children : List Element) (sound : Sound pending d) (known : d.KnownFrom parent) :
    Draws pending d (drawCatchAlls ds parent children d) := by
  unfold drawCatchAlls
  induction children.filter (·.tag = "catchAll") generalizing d with
  | nil => exact .refl sound
  | cons e rest ih =>
      have anchor : d.KnownFrom (parent.or (d.nodes.head?.map (·.id))) := by
        cases parent with
        | some p => exact known
        | none =>
            intro id member
            obtain ⟨node, first, rfl⟩ := Option.map_eq_some_iff.mp member
            exact sound.known_of_placed (List.mem_map_of_mem (List.mem_of_head? first))
      have linked := (place_linkFrom_draws sound anchor (catchAllSpec ds e) handlerOffset oneRow
        .error (some "error")).1
      exact linked.trans (ih linked.sound (linked.knownFrom known))

mutual

theorem drawElement_draws (ds : Declared) {pending : List String} {d : Draft}
    {parent : Option String} (sound : Sound pending d) (known : d.KnownFrom parent) :
    (e : Element) → Draws pending d (drawElement ds parent d e).2 ∧
      (drawElement ds parent d e).2.Known (drawElement ds parent d e).1
  | ⟨tag, attributes, text, children⟩ => by
      obtain ⟨head, id⟩ := place_linkFrom_draws sound known
        (elementSpec ds ⟨tag, attributes, text, children⟩) (.ofInt 0) oneRow .plain none
      obtain ⟨chain, last⟩ := drawElements_draws ds head.sound (knownFrom_some.mpr id) children
      have handlers := drawCatchAlls_draws ds children chain.sound (chain.knownFrom (knownFrom_some.mpr id))
      have aside := chain.trans handlers
      rw [drawElement]
      dsimp only
      split
      · obtain ⟨closed, close⟩ := place_linkFrom_draws handlers.sound
          (knownFrom_some.mpr (handlers.known (last.getD (chain.known id))))
          (endSpec ds ⟨tag, attributes, text, children⟩) (.ofInt 0) oneRow .plain none
        exact ⟨head.trans (aside.trans closed), close⟩
      · split
        · exact ⟨head.trans aside, handlers.known (last.getD (chain.known id))⟩
        · exact ⟨head, id⟩

theorem drawElements_draws (ds : Declared) {pending : List String} {d : Draft}
    {parent : Option String} (sound : Sound pending d) (known : d.KnownFrom parent) :
    (elements : List Element) → Draws pending d (drawElements ds parent d elements).2 ∧
      (drawElements ds parent d elements).2.KnownFrom (drawElements ds parent d elements).1
  | [] => by
      rw [drawElements]
      exact ⟨.refl sound, known⟩
  | e :: rest => by
      rw [drawElements]
      split
      · obtain ⟨first, id⟩ := drawElement_draws ds sound known e
        obtain ⟨chain, last⟩ := drawElements_draws ds first.sound (knownFrom_some.mpr id) rest
        exact ⟨first.trans chain, last⟩
      · exact drawElements_draws ds sound known rest

end

theorem drawOrchestration_sound (ds : Declared) (orchestration : Element) :
    Sound [] (drawOrchestration ds orchestration) := by
  obtain ⟨chain, _⟩ := drawElements_draws ds (sound_start projectGrid firstRow) knownFrom_none
    ((orchestration.child? "globalTry").getD orchestration).children
  exact (drawCatchAlls_draws ds _ chain.sound knownFrom_none).sound

end ExportDiff.Flow
