import AgentHost.Proofs.ImageSelection
import AgentHost.Proofs.PromptLine
import AgentHost.Text.Hex

namespace AgentHost

namespace Image

variable {image other : Image}

/-- The bytes of both keys are the same, but the zero byte between media type and data comes earlier
    in the first image. -/
def CutBefore (image other : Image) : Prop :=
  ∃ middle : String, other.mediaType = image.mediaType ++ "\x00" ++ middle ∧
    image.data = middle ++ "\x00" ++ other.data

def Recut (image other : Image) : Prop := image.CutBefore other ∨ other.CutBefore image

/-- No two of these images have the same digest of different bytes. -/
def CollisionFree (images : List Image) : Prop :=
  ∀ image ∈ images, ∀ other ∈ images,
    Digest.Sha256.digest image.keyBytes = Digest.Sha256.digest other.keyBytes →
      image.keyBytes = other.keyBytes

theorem keyBytes_encode (image : Image) :
    image.keyBytes = Text.Utf8.encode (image.mediaType ++ "\x00" ++ image.data) := by
  rw [Text.Utf8.encode_append, Text.Utf8.encode_append, List.append_assoc]
  rfl

theorem CutBefore.joined (cut : image.CutBefore other) :
    image.mediaType ++ "\x00" ++ image.data = other.mediaType ++ "\x00" ++ other.data := by
  obtain ⟨middle, mediaType, data⟩ := cut
  rw [mediaType, data]
  simp only [String.append_assoc]

theorem CutBefore.zero (cut : image.CutBefore other) : '\x00' ∈ other.mediaType.toList := by
  obtain ⟨middle, mediaType, -⟩ := cut
  rw [mediaType]
  simp

theorem cut_of_joined {more : List Char} (longer : other.mediaType.toList = image.mediaType.toList ++ more)
    (rest : '\x00' :: image.data.toList = more ++ '\x00' :: other.data.toList) :
    image = other ∨ image.CutBefore other := by
  cases more with
  | nil =>
    left
    obtain ⟨mediaType, data⟩ := image
    obtain ⟨otherType, otherData⟩ := other
    rw [List.append_nil] at longer
    have sameType : otherType = mediaType := String.toList_inj.mp longer
    have sameData : data = otherData := String.toList_inj.mp (List.cons.inj rest).2
    rw [sameType, sameData]
  | cons first middle =>
    right
    obtain ⟨rfl, tail⟩ := List.cons.inj rest
    refine ⟨String.ofList middle, ?_, ?_⟩
    · rw [← String.toList_inj, longer]
      simp
    · rw [← String.toList_inj, tail]
      simp

theorem keyBytes_eq_iff : image.keyBytes = other.keyBytes ↔ image = other ∨ image.Recut other := by
  rw [keyBytes_encode, keyBytes_encode, Text.Utf8.encode_injective.eq_iff]
  constructor
  · intro same
    have joined := String.toList_inj.mpr same
    simp only [String.toList_append, List.append_assoc] at joined
    rcases List.append_eq_append_iff.mp joined with ⟨more, longer, rest⟩ | ⟨more, longer, rest⟩
    · rcases cut_of_joined longer rest with equal | cut
      · exact .inl equal
      · exact .inr (.inl cut)
    · rcases cut_of_joined longer rest with equal | cut
      · exact .inl equal.symm
      · exact .inr (.inr cut)
  · rintro (rfl | cut | cut)
    · rfl
    · exact cut.joined
    · exact cut.joined.symm

theorem CollisionFree.key_eq_iff {images : List Image} (free : CollisionFree images)
    (member : image ∈ images) (among : other ∈ images) :
    image.key = other.key ↔ image = other ∨ image.Recut other := by
  rw [← keyBytes_eq_iff, key, key, Text.Hex.ofBytes_injective.eq_iff]
  exact ⟨free image member other among, congrArg _⟩

end Image

namespace ImageFilter

open Image (CollisionFree)

theorem after_cap (filter : ImageFilter) (images : List Image) :
    (filter.after images).cap = filter.cap := by rw [after_eq]

/-- As long as the cap is not reached, the filter has seen all keys it was offered. -/
theorem mem_seen_after {cap : Nat} {offered : List Image} (key : String)
    (room : (after { cap } offered).seen.length < cap) :
    key ∈ (after { cap } offered).seen ↔ ∃ earlier ∈ offered, earlier.key = key := by
  have selected := Image.selection_selected cap offered
  rw [after_eq, passing_fresh] at room ⊢
  simp only [List.append_nil, List.length_reverse, List.length_map] at room
  rw [List.append_nil, List.mem_reverse]
  constructor
  · intro told
    obtain ⟨earlier, passed, same⟩ := List.mem_map.mp told
    exact ⟨earlier, selected.order.subset passed, same⟩
  · rintro ⟨earlier, member, rfl⟩
    exact (selected.complete earlier member).resolve_right (by omega)

/-- Two images have the same key bytes exactly if these are one text that is cut at the same or at
    different zeros, which requires a zero in a media type. If the digest has no collision on the
    images, an image below the cap is dropped exactly if such an image came before it. -/
theorem dropped_of_offered (cap : Nat) {offered : List Image} {image : Image}
    (free : CollisionFree (image :: offered)) :
    (∀ one other : Image, one.keyBytes = other.keyBytes ↔ one = other ∨ one.Recut other) ∧
    (∀ one other : Image, one.Recut other →
      '\x00' ∈ one.mediaType.toList ∨ '\x00' ∈ other.mediaType.toList) ∧
    (∀ one ∈ image :: offered, ∀ other ∈ image :: offered,
      one.key = other.key ↔ one = other ∨ one.Recut other) ∧
    let filter := after { cap } offered
    filter.seen.length < cap →
      ((filter.offer image).1 = false ↔ ∃ earlier ∈ offered, earlier = image ∨ earlier.Recut image) := by
  refine ⟨fun _ _ => Image.keyBytes_eq_iff, ?_, fun _ member _ among => free.key_eq_iff member among, ?_⟩
  · rintro one other (cut | cut)
    · exact .inr cut.zero
    · exact .inl cut.zero
  · intro filter room
    have refused : (filter.offer image).1 = false ↔ image.key ∈ filter.seen := by
      by_cases seen : image.key ∈ filter.seen
      · simp [offer_seen seen, seen]
      · have space : filter.seen.length < filter.cap := by rwa [after_cap]
        simp [offer_new seen space, seen]
    rw [refused, mem_seen_after image.key room]
    have same (earlier : Image) (member : earlier ∈ offered) :=
      free.key_eq_iff (List.mem_cons_of_mem image member) (List.mem_cons_self (a := image))
    constructor
    · rintro ⟨earlier, member, key⟩
      exact ⟨earlier, member, (same earlier member).mp key⟩
    · rintro ⟨earlier, member, cut⟩
      exact ⟨earlier, member, (same earlier member).mpr cut⟩

/-- The same data under two media types without a zero. -/
theorem other_media_type_passes :
    let png : Image := ⟨"image/png", "AAAA"⟩
    let jpeg : Image := ⟨"image/jpeg", "AAAA"⟩
    CollisionFree [jpeg, png] ∧ png.key ≠ jpeg.key ∧ ((after { cap := 4 } [png]).offer jpeg).1 = true := by
  intro png jpeg
  have apart : Digest.Sha256.digest png.keyBytes ≠ Digest.Sha256.digest jpeg.keyBytes := by
    decide +kernel
  have free : CollisionFree [jpeg, png] := by
    intro image member other among same
    simp only [List.mem_cons, List.not_mem_nil, or_false] at member among
    rcases member with rfl | rfl <;> rcases among with rfl | rfl
    · rfl
    · exact absurd same.symm apart
    · exact absurd same apart
    · rfl
  obtain ⟨-, zero, keys, dropped⟩ := dropped_of_offered 4 free
  have uncut : ¬ (png = jpeg ∨ png.Recut jpeg) := by
    rintro (same | cut)
    · exact absurd same (by decide)
    · exact absurd (zero png jpeg cut) (by decide)
  refine ⟨free, ?_, ?_⟩
  · rwa [ne_eq, keys png (by simp) jpeg (by simp)]
  · rw [← Bool.not_eq_false, dropped (by decide +kernel)]
    rintro ⟨earlier, member, same⟩
    rw [List.mem_singleton.mp member] at same
    exact uncut same

/-- Two different images in one message, of which the second is dropped. -/
theorem image_lost_to_zeros :
    let image : Image := ⟨"a", "b\x00c"⟩
    let other : Image := ⟨"a\x00b", "c"⟩
    (∃ line record, (Decoder.streamJson false).parseLine line = some record ∧
      (Decoder.streamJson false).parts record = [.image image, .image other]) ∧
    image ≠ other ∧ image.keyBytes = other.keyBytes ∧
    offerAll { cap := 4 } [image, other] = [true, false] := by
  intro image other
  have bytes : image.keyBytes = other.keyBytes := by decide +kernel
  have key : other.key = image.key := by rw [Image.key, Image.key, bytes]
  have first : offer { cap := 4 } image = (true, { cap := 4, seen := [image.key] }) :=
    offer_new (by simp) (by decide)
  have second : offer { cap := 4, seen := [image.key] } other = (false, { cap := 4, seen := [image.key] }) :=
    offer_seen (by simp [key])
  let prompt : Prompt := ⟨"", [image, other]⟩
  refine ⟨⟨prompt.record.render, prompt.record, prompt.parseLine_render, prompt.parts_record false⟩,
    by decide, bytes, ?_⟩
  simp only [offerAll, first, second]

end ImageFilter

end AgentHost
