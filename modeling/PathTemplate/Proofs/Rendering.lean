import PathTemplate.Match.Walk
import PathTemplate.Proofs.Grammar

/-!
Writing a template out. The text that `render` writes reads as the same segments
(`segments_ofString_render`), so it is a canonical form of every text with these segments: it
matches the same paths, writing it again changes nothing, and two texts have the same segments
exactly when they are written the same (`render_canonical`).
-/

namespace PathTemplate.Template

theorem segments_ofString (text : String) :
    (ofString text).segments = (Path.tokens text).map Segment.ofToken := rfl

theorem isToken_of_mem_render {text t : String}
    (h : t ∈ (ofString text).segments.map Segment.render) : Path.IsToken t := by
  simp only [ofString, List.map_map, List.mem_map] at h
  obtain ⟨token, ht, rfl⟩ := h
  exact Segment.isToken_render (Path.isToken_of_mem_tokens ht)

/-- The tokens of the written text are the segments, written one by one. -/
theorem tokens_render (text : String) :
    Path.tokens (ofString text).render = (ofString text).segments.map Segment.render :=
  Path.tokens_ofTokens fun _ => isToken_of_mem_render

theorem readable_of_mem_segments {text : String} {s : Segment}
    (h : s ∈ (ofString text).segments) : s.Readable := by
  obtain ⟨token, -, rfl⟩ := List.mem_map.mp h
  exact Segment.ofToken_readable token

/-- **Reading undoes writing.** -/
theorem segments_ofString_render (text : String) :
    (ofString (ofString text).render).segments = (ofString text).segments := by
  have hread : ∀ s ∈ (ofString text).segments, (Segment.ofToken ∘ Segment.render) s = id s :=
    fun s hs => Segment.ofToken_render (readable_of_mem_segments hs)
  rw [segments_ofString, tokens_render, List.map_map, List.map_congr_left hread, List.map_id]

theorem ofString_render (text : String) : ofString (ofString text).render = ofString text := by
  rw [ofString, ← segments_ofString, segments_ofString_render]
  rfl

theorem isNormal_render (text : String) : Path.isNormal (ofString text).render = true :=
  Path.isNormal_ofTokens fun _ => isToken_of_mem_render

/-- Writing looks at the segments only. -/
theorem render_congr {t u : Template} (h : t.segments = u.segments) : t.render = u.render := by
  rw [render, h, render]

/-- So does matching, the options apart. -/
theorem matchPath_congr {text other : String}
    (h : (ofString text).segments = (ofString other).segments) (path : String) (seed : Params)
    (o : Options) : matchPath path text seed o = matchPath path other seed o := by
  simp only [matchPath, resolve, h]

/-- **Canonical form.** The written text of a template reads as the same segments and matches
like the text it was read from; it is normal, and writing it again gives it back; and it is the
same for two texts exactly when their segments are. -/
theorem render_canonical (text : String) :
    (ofString (ofString text).render).segments = (ofString text).segments ∧
    (∀ path seed o,
      matchPath path (ofString text).render seed o = matchPath path text seed o) ∧
    (ofString (ofString text).render).render = (ofString text).render ∧
    Path.isNormal (ofString text).render = true ∧
    ∀ other, (ofString text).segments = (ofString other).segments ↔
      (ofString text).render = (ofString other).render := by
  have hsame := segments_ofString_render text
  refine ⟨hsame, matchPath_congr hsame, render_congr hsame, isNormal_render text, ?_⟩
  intro other
  constructor
  · exact render_congr
  · intro h
    rw [← hsame, h, segments_ofString_render]

/-- A literal that ends in a mark keeps it. -/
example : (ofString "//v*?/:id//").render = "/v*?/:id" := by decide

end PathTemplate.Template
