import DecodePipeline.Proofs.Json.Records

/-!
This module contains the way of the options through their JSON form and back. Any of the options
may be left out of the text and the others may be in any order.
-/

namespace DecodePipeline

open Json.Reader

theorem AspectMethod.lookup_names (method : AspectMethod)
    : names.lookup ((names.find? (·.2 == method)).elim "" (·.1)) = some method := by
  cases method <;> rfl

theorem StereoMode.lookup_names (mode : StereoMode)
    : names.lookup ((names.find? (·.2 == mode)).elim "" (·.1)) = some mode := by
  cases mode <;> rfl

namespace DecoderOptions

/-- The options with the given names are those of `o`, the others those of `base`. -/
def onto (o base : DecoderOptions) (names : List String) : DecoderOptions where
  correctPts := if "correct_pts" ∈ names then o.correctPts else base.correctPts
  fallbackFps := if "fallback_fps" ∈ names then o.fallbackFps else base.fallbackFps
  aspectMethod := if "aspect_method" ∈ names then o.aspectMethod else base.aspectMethod
  movieAspect := if "movie_aspect" ∈ names then o.movieAspect else base.movieAspect
  videoRotate := if "video_rotate" ∈ names then o.videoRotate else base.videoRotate
  stereoOut := if "stereo_out" ∈ names then o.stereoOut else base.stereoOut
  videoDecoders := if "video_decoders" ∈ names then o.videoDecoders else base.videoDecoders

variable (o : DecoderOptions)

theorem ite_mem_cons {α : Type} (name first : String) (names : List String) (x y : α)
    : (if name ∈ names then x else if name ∈ [first] then x else y)
        = if name ∈ first :: names then x else y := by
  by_cases hnames : name ∈ names
  . rw [if_pos hnames, if_pos (List.mem_cons_of_mem _ hnames)]
  . have hfirst : name ∈ first :: names ↔ name ∈ [first] := by
      rw [List.mem_cons, List.mem_singleton, or_iff_left hnames]
    rw [if_neg hnames]
    simp only [hfirst]

theorem onto_onto (base : DecoderOptions) (name : String) (names : List String)
    : o.onto (o.onto base [name]) names = o.onto base (name :: names) := by
  unfold onto
  simp only [ite_mem_cons]

theorem foldl_onto (base : DecoderOptions) (names : List String)
    : names.foldl (fun base name => o.onto base [name]) base = o.onto base names := by
  induction names generalizing base with
  | nil => rfl
  | cons name names ih => rw [List.foldl_cons, ih, onto_onto]

def names : List String :=
  ["correct_pts", "fallback_fps", "aspect_method", "movie_aspect", "video_rotate", "stereo_out",
   "video_decoders"]

theorem written_names : o.written.map (·.1) = names := rfl

theorem nodup_written : (o.written.map (·.1)).Nodup := by
  rw [written_names]
  decide

theorem onto_names (base : DecoderOptions) : o.onto base names = o := rfl

theorem nodup_of_written {fields : List (String × String)} (hnodup : fields.Nodup)
    (hwritten : fields ⊆ o.written)
    : (fields.map (·.1)).Nodup := by
  have hnames := nodup_written o
  exact hnodup.map_on fun field hfield other hother heq =>
    List.inj_on_of_nodup_map hnames (hwritten hfield) (hwritten hother) heq

variable {o : DecoderOptions} (hfps : Json.IsCovered o.fallbackFps)
  (haspect : ∀ x ∈ o.movieAspect, Json.IsCovered x)

include hfps haspect

theorem isField_written
    : ∀ field ∈ o.written, IsField members (fun name base => o.onto base [name]) field := by
  unfold written
  simp only [List.forall_mem_cons]
  have hmovie : Reads (option float) (Json.option Json.float o.movieAspect) o.movieAspect :=
    reads_option (fun x hx => reads_float (haspect x hx)) fun x hx => notNull_float (haspect x hx)
  have hrotate : Reads (option uint32) (Json.option toString o.videoRotate) o.videoRotate :=
    reads_option (fun n _ => reads_uint32 n) fun n _ => notNull_uint32 n
  have hdecoders : Reads (option string) (Json.option Json.string o.videoDecoders) o.videoDecoders :=
    reads_option (fun text _ => reads_string text) fun text _ => notNull_string text
  refine ⟨?_, ?_, ?_, ?_, ?_, ?_, ?_, nofun⟩
  . exact isField_of_member (fun base x => { base with correctPts := x }) rfl
      (reads_bool o.correctPts) fun _ => rfl
  . exact isField_of_member (fun base x => { base with fallbackFps := x }) rfl
      (reads_float hfps) fun _ => rfl
  . exact isField_of_member (fun base x => { base with aspectMethod := x }) rfl
      (reads_choice o.aspectMethod.lookup_names) fun _ => rfl
  . exact isField_of_member (fun base x => { base with movieAspect := x }) rfl hmovie fun _ => rfl
  . exact isField_of_member (fun base x => { base with videoRotate := x }) rfl hrotate fun _ => rfl
  . exact isField_of_member (fun base x => { base with stereoOut := x }) rfl
      (reads_choice o.stereoOut.lookup_names) fun _ => rfl
  . exact isField_of_member (fun base x => { base with videoDecoders := x }) rfl hdecoders
      fun _ => rfl

theorem ofJson?_record {fields : List (String × String)} (hnodup : fields.Nodup)
    (hwritten : fields ⊆ o.written)
    : ofJson? (Json.record fields) = .ok (o.onto {} (fields.map (·.1))) := by
  have hfields := isField_written hfps haspect
  have hnames := nodup_of_written o hnodup hwritten
  have hrun := run_record (fun field hfield => hfields field (hwritten hfield)) hnames {} []
  rw [foldl_onto] at hrun
  exact Json.read_of_run hrun

theorem ofJson?_toJson : ofJson? o.toJson = .ok o := by
  have hread := ofJson?_record hfps haspect (nodup_written o).of_map (List.Subset.refl _)
  rwa [written_names, onto_names] at hread

omit hfps haspect in
theorem onto_videoRotate (hnone : o.videoRotate = none) (names : List String)
    : (o.onto {} names).videoRotate = if "video_rotate" ∈ names then none else some 0 := by
  unfold onto
  rw [hnone]

/--
The options survive their JSON form: any of the options that are written, in any order, are read as
they are and the others have their default. An unset rotation, which is written as `null`, is not a
missing one, and every text is read as it was whatever has to be escaped in it.
-/
theorem options_survive_json
    : (∀ fields, fields.Nodup → fields ⊆ o.written →
          ofJson? (Json.record fields) = .ok (o.onto {} (fields.map (·.1))))
      ∧ ofJson? o.toJson = .ok o
      ∧ (o.videoRotate = none → ∀ fields, fields.Nodup → fields ⊆ o.written →
          ∃ read, ofJson? (Json.record fields) = .ok read
            ∧ read.videoRotate = if "video_rotate" ∈ fields.map (·.1) then none else some 0)
      ∧ ∀ text, Json.read string (Json.string text) = .ok text := by
  refine ⟨fun fields hnodup hwritten => ofJson?_record hfps haspect hnodup hwritten,
    ofJson?_toJson hfps haspect, fun hnone fields hnodup hwritten => ?_,
    fun text => Json.read_of_run (run_string text [])⟩
  exact ⟨_, ofJson?_record hfps haspect hnodup hwritten, onto_videoRotate hnone _⟩

omit hfps haspect

def sample : DecoderOptions where
  correctPts := false
  fallbackFps := 23.976
  aspectMethod := .container
  movieAspect := some 1.5
  videoRotate := none
  stereoOut := .sideBySideLeftFirst
  videoDecoders := some "\"raw\\video\",\n-ffmpeg"

theorem sample_survives_json
    : ofJson? sample.toJson = .ok sample
      ∧ (ofJson? "\x7b\"video_rotate\":null,\"correct_pts\":false\x7d").toOption
        = some { correctPts := false, videoRotate := none } := by
  have hfps : Json.IsCovered sample.fallbackFps :=
    ⟨by decide +kernel, ⟨23976, -3⟩, by decide +kernel, Decimal.isShort_of_lt (by decide) (by decide)⟩
  have haspect : ∀ x ∈ sample.movieAspect, Json.IsCovered x := by
    rintro _ ⟨⟩
    exact ⟨by decide +kernel, ⟨15, -1⟩, by decide +kernel,
      Decimal.isShort_of_lt (by decide) (by decide)⟩
  have hsurvive := options_survive_json hfps haspect
  have hpart := hsurvive.1 [("video_rotate", "null"), ("correct_pts", "false")] (by decide) (by decide)
  exact ⟨hsurvive.2.1, congrArg Except.toOption hpart⟩

end DecoderOptions
end DecodePipeline
