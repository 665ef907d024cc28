/-
Which axes a text can name. The check lets one line feed stand behind the name of an axis. In a
placeholder it reads as a blank, so a placeholder written out with such a name is one for the axis of
the name alone: it gets that axis's value, or fails without that axis (`lineFeed_axis_unusable`). All
other axes of a checked matrix have the values that their placeholders get (`reference_fills`).
-/
import MergeGate.Proofs.Matrix

namespace MergeGate.Matrix

open Condition (Blank)

/-! ## Names of axes -/

theorem IsAxis.lineFeed_not_mem {cs : List Char} (h : IsAxis cs) : '\n' ∉ cs :=
  fun hmem => absurd (h.rest _ hmem) (by decide)

/-- What the check takes for a name of an axis: a name, or a name with a line feed behind it. -/
theorem isAxisName_iff {cs : List Char} :
    isAxisName cs = true ↔ IsAxis cs ∨ ∃ axis, IsAxis axis ∧ cs = axis ++ ['\n'] := by
  constructor
  · cases cs with
    | nil => simp [isAxisName]
    | cons c rest =>
      have hword : ∀ d ∈ rest.takeWhile isAxisRest, isAxisRest d = true :=
        fun d hd => List.mem_takeWhile_imp hd
      have hsplit := List.takeWhile_append_dropWhile (p := isAxisRest) (l := rest)
      simp only [isAxisName, Bool.and_eq_true]
      rintro ⟨hc, hend⟩
      split at hend
      · next hnil =>
        rw [hnil, List.append_nil] at hsplit
        exact .inl ⟨c, rest, rfl, hc, hsplit ▸ hword⟩
      · next hfeed =>
        rw [hfeed] at hsplit
        exact .inr ⟨_, ⟨c, _, rfl, hc, hword⟩, by rw [List.cons_append, hsplit]⟩
      · cases hend
  · rintro (⟨c, rest, rfl, hc, hrest⟩ | ⟨_, ⟨c, rest, rfl, hc, hrest⟩, rfl⟩)
    · simp [isAxisName, hc, List.dropWhile_eq_nil_iff.2 hrest]
    · have hfeed : (rest ++ ['\n']).dropWhile isAxisRest = ['\n'] := by
        rw [List.dropWhile_append_of_pos hrest, List.dropWhile_cons_of_neg (by decide)]
      simp [isAxisName, hc, hfeed]

/-! ## Placeholders written out -/

/-- The placeholder that is written out with a name. -/
def reference (axis : String) : String := "$\x7b\x7b matrix." ++ axis ++ " \x7d\x7d"

theorem IsAxis.spells {axis : String} (h : IsAxis axis.toList) :
    Spells axis.toList (reference axis).toList := by
  have hspace : Blank [' '] := List.forall_mem_singleton.2 (by decide)
  exact ⟨h, [' '], [' '], hspace, hspace, by simp [reference, String.toList_append]⟩

/-- A line feed behind the name is a blank. -/
theorem IsAxis.spells_lineFeed {axis : String} (h : IsAxis axis.toList) :
    Spells axis.toList (reference (axis ++ "\n")).toList := by
  have hspace : Blank [' '] := List.forall_mem_singleton.2 (by decide)
  have hfeed : Blank ['\n'] := List.forall_mem_singleton.2 (by decide)
  exact ⟨h, [' '], ['\n'] ++ [' '], hspace, hfeed.append hspace, by simp [reference, String.toList_append]⟩

/-- The names that placeholders have are those that the check lets through without a line feed. -/
theorem exists_spells_iff {axis : String} :
    (∃ w, Spells axis.toList w) ↔ isAxisName axis.toList = true ∧ '\n' ∉ axis.toList := by
  rw [isAxisName_iff]
  constructor
  · rintro ⟨w, hw⟩
    exact ⟨.inl hw.1, hw.1.lineFeed_not_mem⟩
  · rintro ⟨h | ⟨name, -, hfeed⟩, hnone⟩
    · exact ⟨_, h.spells⟩
    · simp [hfeed] at hnone

theorem render_spelled {axis s : String} (h : Spells axis.toList s.toList) (values : String → Option Value) :
    render values s = textFor values axis := by
  have hsegments := segments_placeholder h []
  rw [List.append_nil, segments_nil] at hsegments
  rw [render, hsegments]
  cases hv : textFor values axis <;>
    simp [renderAll, Segment.render, hv, bind, Except.bind, pure, Except.pure, Except.map]

/-- A name without a line feed gets its own value. -/
theorem render_reference {axis : String} (h : isAxisName axis.toList = true) (hnone : '\n' ∉ axis.toList)
    (values : String → Option Value) : render values (reference axis) = textFor values axis := by
  obtain ⟨w, hw⟩ := exists_spells_iff.2 ⟨h, hnone⟩
  exact render_spelled hw.1.spells values

/-- A name with a line feed gets the value of the name alone. -/
theorem render_reference_lineFeed {axis : String} (h : isAxisName axis.toList = true)
    (hfeed : '\n' ∈ axis.toList) (values : String → Option Value) :
    ∃ name, axis = name ++ "\n" ∧ render values (reference axis) = textFor values name := by
  rcases isAxisName_iff.1 h with haxis | ⟨name, hname, heq⟩
  · exact absurd hfeed haxis.lineFeed_not_mem
  · obtain ⟨name, rfl⟩ : ∃ s : String, s.toList = name := ⟨String.ofList name, by simp⟩
    obtain rfl : axis = name ++ "\n" := by
      rw [← String.toList_inj, heq, String.toList_append]
      rfl
    exact ⟨name, rfl, render_spelled hname.spells_lineFeed values⟩

/-- **Placeholders of a matrix's own axes.** Placeholders name exactly what the check lets through and
holds no line feed. A checked matrix has texts for axes, and at every coordinate, also of an instance,
each axis has a value: the placeholder written out with the axis is rendered to the value's text, unless
the axis is a name with a line feed behind it; then it is rendered as one for the name alone. -/
theorem reference_fills {j : Job} (hcheck : check j = .ok ()) :
    (∀ a : String, (∃ w, Spells a.toList w) ↔ isAxisName a.toList = true ∧ '\n' ∉ a.toList) ∧
    ∃ (names : List String) (axes : List (Value × List Value)),
      Matrix.axes j.matrix = .ok axes ∧ axes.map (·.1) = names.map .text ∧
      (∀ base is, expand j base = .ok is → ∀ i ∈ is, raw i.coordinate ∈ coordinates axes) ∧
      ∀ r ∈ coordinates axes, ∃ c, r = raw c ∧ ∀ a ∈ names, ∃ v, List.lookup a c = some v ∧
        ('\n' ∉ a.toList → render (fun b => List.lookup b c) (reference a) = .ok v.plain) ∧
        ('\n' ∈ a.toList → ∃ name, a = name ++ "\n" ∧
          render (fun b => List.lookup b c) (reference a) = match List.lookup name c with
            | some w => .ok w.plain
            | none => .error (.missing name)) := by
  refine ⟨fun a => exists_spells_iff, ?_⟩
  obtain ⟨axes, hgrid⟩ := checkCause_ok (mapError_eq_ok.1 hcheck)
  refine ⟨axes.map (·.1), _, hgrid.read, by simp, fun base is his i => raw_mem_coordinates hgrid.read his,
    fun r hr => ?_⟩
  rw [coordinates_text] at hr
  obtain ⟨c, hc, rfl⟩ := List.mem_map.1 hr
  refine ⟨c, rfl, fun a ha => ?_⟩
  have hvalue : (List.lookup a c).isSome := by
    rw [Assoc.isSome_lookup_iff, Assoc.keys, keys_of_mem_grid hc]
    exact ha
  obtain ⟨v, hv⟩ := Option.isSome_iff_exists.1 hvalue
  obtain ⟨axis, haxis, rfl⟩ := List.mem_map.1 ha
  have hproper := hgrid.proper _ haxis
  have hwritable := hgrid.writable_of_mem hc
  have htext {b : String} {w : Value} (hw : List.lookup b c = some w) :
      textFor (fun b => List.lookup b c) b = .ok w.plain :=
    textFor_eq_ok.2 ⟨w, hw, hwritable _ (Assoc.mem_of_lookup hw), rfl⟩
  refine ⟨v, hv, fun hnone => (render_reference hproper hnone _).trans (htext hv), fun hfeed => ?_⟩
  obtain ⟨name, hname, hrender⟩ := render_reference_lineFeed hproper hfeed fun b => List.lookup b c
  refine ⟨name, hname, hrender.trans ?_⟩
  cases hw : List.lookup name c with
  | none => exact textFor_missing_iff.2 ⟨rfl, hw⟩
  | some w => exact htext hw

/-- Two axes whose names differ in a line feed. -/
def doubled : Job where
  id := "build"
  steps := [{ name := "s", run := some (reference "os\n") }]
  matrix := .map [(.text "os", .list [.text "linux"]), (.text "os\n", .list [.text "macos"])]

theorem reference_fills_doubled : check doubled = .ok () ∧ ∃ axes r c,
    Matrix.axes doubled.matrix = .ok axes ∧ r ∈ coordinates axes ∧ r = raw c ∧ ∃ v,
      List.lookup "os" c = some v ∧ render (fun b => List.lookup b c) (reference "os") = .ok v.plain := by
  have hcheck : check doubled = .ok () := eq_ok_of_toOption (by decide +kernel)
  obtain ⟨-, names, axes, haxes, hnames, -, hcoordinates⟩ := reference_fills hcheck
  obtain rfl : axes = [(.text "os", [.text "linux"]), (.text "os\n", [.text "macos"])] :=
    (Except.ok.inj haxes).symm
  have hmem : "os" ∈ names := by
    have htext : Value.text "os" ∈ names.map .text := hnames ▸ .head _
    obtain ⟨a, ha, heq⟩ := List.mem_map.1 htext
    exact Value.text.inj heq ▸ ha
  obtain ⟨c, hc, hvalues⟩ := hcoordinates _ (.head _)
  obtain ⟨v, hv, hfills, -⟩ := hvalues "os" hmem
  exact ⟨hcheck, _, _, c, haxes, .head _, hc, v, hv, hfills (by decide)⟩

/-- The same without the first axis. -/
def solitary : Job where
  id := "build"
  steps := []
  matrix := .map [(.text "os\n", .list [.text "macos"])]

/-- The placeholder of the axis with the line feed gets the value of the other axis; without the other
axis it fails, though the check lets the job through. -/
theorem lineFeed_axis_unusable :
    (check doubled = .ok () ∧ ∃ is, expand doubled [] = .ok is ∧ ∃ i ∈ is,
      List.lookup "os\n" i.coordinate = some (.text "macos") ∧
      render (fun b => List.lookup b i.coordinate) (reference "os\n") = .ok "linux") ∧
    check solitary = .ok () ∧ ∃ is, expand solitary [] = .ok is ∧ ∃ i ∈ is,
      List.lookup "os\n" i.coordinate = some (.text "macos") ∧
      render (fun b => List.lookup b i.coordinate) (reference "os\n") = .error (.missing "os") := by
  have hwritten : Spells "os".toList (reference ("os" ++ "\n")).toList :=
    IsAxis.spells_lineFeed ⟨'o', ['s'], by decide, by decide, List.forall_mem_singleton.2 (by decide)⟩
  have hdoubled : check doubled = .ok () := eq_ok_of_toOption (by decide +kernel)
  have hsolitary : check solitary = .ok () := eq_ok_of_toOption (by decide +kernel)
  refine ⟨⟨hdoubled, ?_⟩, hsolitary, ?_⟩
  · obtain ⟨is, his, i, hi, hc⟩ := exists_instance hdoubled (by simp [doubled, Worded]) rfl
      (c := [("os", .text "linux"), ("os\n", .text "macos")]) (.head _) []
    exact ⟨is, his, i, hi, by rw [hc]; rfl, (render_spelled hwritten _).trans (by rw [hc]; rfl)⟩
  · obtain ⟨is, his, i, hi, hc⟩ := exists_instance hsolitary (by simp [solitary]) rfl
      (c := [("os\n", .text "macos")]) (.head _) []
    exact ⟨is, his, i, hi, by rw [hc]; rfl, (render_spelled hwritten _).trans (by rw [hc]; rfl)⟩

end MergeGate.Matrix
