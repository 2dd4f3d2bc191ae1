import ChipEight.Console.Peripheral

/-! The window: pictures as textures on a desktop.

Opening a window and showing a picture take a few calls of the desktop in a fixed
order, each of which may fail with the desktop's own words. A picture becomes a
texture of three bytes a pixel, all of them 255 where it is lit and 0 where it is
dark. -/
namespace ChipEight

/-- A call of the desktop. -/
inductive DesktopCall where
  | init
  | video
  | window
  | canvas
  | eventPump
  | createTexture
  | lock
  | copy
deriving DecidableEq, Repr

/-- A desktop: which of its calls fail, and with which words. -/
structure Desktop where
  failure : DesktopCall → Option String

namespace Desktop

/-- A desktop on which every call succeeds. -/
def sound : Desktop := ⟨fun _ => none⟩

/-- Make some calls in order; the first that fails ends it. -/
def callAll (d : Desktop) : List DesktopCall → Except String Unit
  | [] => .ok ()
  | call :: rest =>
    match d.failure call with
    | some words => .error words
    | none => d.callAll rest

end Desktop

/-- What keeps a window from opening. -/
inductive WindowFault where
  /-- The desktop refused. -/
  | refused (words : String)
  /-- The window would be wider or higher than a desktop can count. -/
  | tooLarge
deriving DecidableEq, Repr

/-- The bytes of a picture, row by row, three a pixel. -/
def Screen.texture (s : Screen) : List UInt8 :=
  s.pixels.flatMap fun lit => List.replicate 3 (if lit then 255 else 0)

/-- A window on a desktop, and the textures it was shown. -/
structure Window where
  desktop : Desktop
  title : String
  width : Nat
  height : Nat
  /-- The textures shown, the latest first. -/
  shown : List (List UInt8)

namespace Window

/-- The sides of a window in which a machine's pixel is a square of this side, if a desktop
can count them in 32 bits. -/
def sides? (scale : UInt32) : Option (Nat × Nat) :=
  let width := Screen.width * scale.toNat
  let height := Screen.height * scale.toNat
  if width < 4294967296 ∧ height < 4294967296 then some (width, height) else none

/-- Open a window. -/
def opened (desktop : Desktop) (scale : UInt32) : Except WindowFault Window :=
  match desktop.callAll [.video] with
  | .error words => .error (.refused words)
  | .ok () =>
    match sides? scale with
    | none => .error .tooLarge
    | some (width, height) =>
      match desktop.callAll [.window, .canvas] with
      | .error words => .error (.refused words)
      | .ok () => .ok ⟨desktop, "Chip-8", width, height, []⟩

/-- Show a picture. -/
def display (picture : Screen) (w : Window) : Response Window Unit :=
  match w.desktop.callAll [.createTexture, .lock, .copy] with
  | .error words => .failed w words
  | .ok () => .ok { w with shown := picture.texture :: w.shown } ()

instance : Display Window where
  present := display

end Window
end ChipEight
