import CodeRetrieval.Files.Tree

set_option autoImplicit false

namespace CodeRetrieval

theorem FilePath.names_eq (text : String) :
    names text = (text.toList.splitOnP (· == '/')).map String.ofList := by
  simp [names, String.toList_split_bool]

namespace FileTree

theorem locate_dot (t : FileTree) (here : FilePath) : t.locate here "." = .ok here := by
  have hnames : FilePath.names "." = ["."] := by
    rw [FilePath.names_eq]
    decide +kernel
  have hrelative : FilePath.isFromTop "." = false := by decide +kernel
  simp [locate, hnames, hrelative, follow]

theorem decode_toUTF8 (s : String) : decode s.toUTF8 = .ok s := by
  have hvalid : s.toUTF8.IsValidUTF8 := s.isValidUTF8
  simp only [decode, String.fromUTF8?, dif_pos hvalid]
  rfl

end FileTree

end CodeRetrieval
