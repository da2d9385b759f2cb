import Kmsrdp.Library.ByteString

/-!
# Buffers of BGRX pixels

A pixel takes four bytes: blue, green, red, and one that is not visible. `pixels` reads a buffer and
ignores what is left over; `pixelAt` reads at a byte offset.
-/
namespace Kmsrdp.Library.Bgrx
open Library.ByteString List

structure Pixel where
  (blue green red : UInt8)
  deriving DecidableEq

def pixelAt (data : Bytes) (offset : Nat) : Pixel :=
  ⟨data.getD offset 0, data.getD (offset + 1) 0, data.getD (offset + 2) 0⟩

def pixels : Bytes → List Pixel
  | blue :: green :: red :: _ :: rest => ⟨blue, green, red⟩ :: pixels rest
  | _ => []

/-- The four bytes of a pixel, the last one zero. -/
def Pixel.bytes (p : Pixel) : Bytes := [p.blue, p.green, p.red, 0]

theorem pixels_bytes (l : List Pixel) : pixels (l.flatMap Pixel.bytes) = l := by
  induction l with
  | nil => rfl
  | cons p rest ih => exact congrArg (p :: ·) ih

variable {n : Nat}

theorem exists_pixel_of_length {data : Bytes} (h : data.length = (n + 1) * 4) :
    ∃ blue green red x rest, data = blue :: green :: red :: x :: rest ∧ rest.length = n * 4 := by
  obtain _ | ⟨blue, _ | ⟨green, _ | ⟨red, _ | ⟨x, rest⟩⟩⟩⟩ := data
  case cons.cons.cons.cons =>
    refine ⟨blue, green, red, x, rest, rfl, ?_⟩
    simp only [length_cons] at h
    omega
  all_goals
    simp only [length_cons, length_nil] at h
    omega

theorem pixels_append {front : Bytes} (h : front.length = n * 4) (back : Bytes) :
    pixels (front ++ back) = pixels front ++ pixels back := by
  induction n generalizing front with
  | zero =>
    have hnil : front = [] := eq_nil_of_length_eq_zero (by simpa using h)
    subst hnil
    rfl
  | succ n ih =>
    obtain ⟨blue, green, red, x, rest, rfl, hrest⟩ := exists_pixel_of_length h
    exact congrArg (_ :: ·) (ih hrest)

theorem pixels_eq_map {data : Bytes} (h : data.length = n * 4) :
    pixels data = (range n).map fun i => pixelAt data (i * 4) := by
  induction n generalizing data with
  | zero =>
    have hnil : data = [] := eq_nil_of_length_eq_zero (by simpa using h)
    subst hnil
    rfl
  | succ n ih =>
    obtain ⟨blue, green, red, x, rest, rfl, hrest⟩ := exists_pixel_of_length h
    rw [pixels, ih hrest, range_succ_eq_map, map_cons, map_map]
    refine congrArg (_ :: ·) (map_congr_left fun i _ => ?_)
    simp [pixelAt, Nat.add_mul]

theorem length_pixels {data : Bytes} (h : data.length = n * 4) : (pixels data).length = n := by
  rw [pixels_eq_map h, length_map, length_range]

end Kmsrdp.Library.Bgrx
