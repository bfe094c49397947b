/-!
# Names of characters

The names that character references use, by their first two letters, each with the text that it
stands for: one character or two.  The oldest names are listed with and without the semicolon.

Main definitions:

- `Reference.Section`: names with the same two letters at the start.
- `Reference.sections`: all names.
-/

namespace LiveMarkup
namespace Html
namespace Reference

/-- Names that begin with the same two letters, with what they stand for. -/
structure Section where
  first : Char
  second : Char
  names : List (String × String)

/-- The names that begin with a capital from A to L. -/
def capitalsAToL : List Section :=
  [⟨'A', 'E', [("AElig;", "Æ"), ("AElig", "Æ")]⟩,
    ⟨'A', 'M', [("AMP;", "&"), ("AMP", "&")]⟩,
    ⟨'A', 'a', [("Aacute;", "Á"), ("Aacute", "Á")]⟩,
    ⟨'A', 'b', [("Abreve;", "Ă")]⟩,
    ⟨'A', 'c', [("Acy;", "А"), ("Acirc;", "Â"), ("Acirc", "Â")]⟩,
    ⟨'A', 'f', [("Afr;", "𝔄")]⟩,
    ⟨'A', 'g', [("Agrave;", "À"), ("Agrave", "À")]⟩,
    ⟨'A', 'l', [("Alpha;", "Α")]⟩,
    ⟨'A', 'm', [("Amacr;", "Ā")]⟩,
    ⟨'A', 'n', [("And;", "⩓")]⟩,
    ⟨'A', 'o', [("Aopf;", "𝔸"), ("Aogon;", "Ą")]⟩,
    ⟨'A', 'p', [("ApplyFunction;", "\u2061")]⟩,
    ⟨'A', 'r', [("Aring;", "Å"), ("Aring", "Å")]⟩,
    ⟨'A', 's', [("Assign;", "≔"), ("Ascr;", "𝒜")]⟩,
    ⟨'A', 't', [("Atilde;", "Ã"), ("Atilde", "Ã")]⟩,
    ⟨'A', 'u', [("Auml;", "Ä"), ("Auml", "Ä")]⟩,
    ⟨'B', 'a', [("Barwed;", "⌆"), ("Barv;", "⫧"), ("Backslash;", "∖")]⟩,
    ⟨'B', 'c', [("Bcy;", "Б")]⟩,
    ⟨'B', 'e', [("Beta;", "Β"), ("Bernoullis;", "ℬ"), ("Because;", "∵")]⟩,
    ⟨'B', 'f', [("Bfr;", "𝔅")]⟩,
    ⟨'B', 'o', [("Bopf;", "𝔹")]⟩,
    ⟨'B', 'r', [("Breve;", "\u02d8")]⟩,
    ⟨'B', 's', [("Bscr;", "ℬ")]⟩,
    ⟨'B', 'u', [("Bumpeq;", "≎")]⟩,
    ⟨'C', 'H', [("CHcy;", "Ч")]⟩,
    ⟨'C', 'O', [("COPY;", "©"), ("COPY", "©")]⟩,
    ⟨'C', 'a', [("Cayleys;", "ℭ"), ("CapitalDifferentialD;", "ⅅ"), ("Cap;", "⋒"),
      ("Cacute;", "Ć")]⟩,
    ⟨'C', 'c', [("Cconint;", "∰"), ("Ccirc;", "Ĉ"), ("Ccedil;", "Ç"), ("Ccedil", "Ç"),
      ("Ccaron;", "Č")]⟩,
    ⟨'C', 'd', [("Cdot;", "Ċ")]⟩,
    ⟨'C', 'e', [("CenterDot;", "·"), ("Cedilla;", "\u00b8")]⟩,
    ⟨'C', 'f', [("Cfr;", "ℭ")]⟩,
    ⟨'C', 'h', [("Chi;", "Χ")]⟩,
    ⟨'C', 'i', [("CircleTimes;", "⊗"), ("CirclePlus;", "⊕"), ("CircleMinus;", "⊖"),
      ("CircleDot;", "⊙")]⟩,
    ⟨'C', 'l', [("CloseCurlyQuote;", "’"), ("CloseCurlyDoubleQuote;", "”"),
      ("ClockwiseContourIntegral;", "∲")]⟩,
    ⟨'C', 'o', [("CounterClockwiseContourIntegral;", "∳"), ("Coproduct;", "∐"), ("Copf;", "ℂ"),
      ("ContourIntegral;", "∮"), ("Conint;", "∯"), ("Congruent;", "≡"), ("Colone;", "⩴"),
      ("Colon;", "∷")]⟩,
    ⟨'C', 'r', [("Cross;", "⨯")]⟩,
    ⟨'C', 's', [("Cscr;", "𝒞")]⟩,
    ⟨'C', 'u', [("CupCap;", "≍"), ("Cup;", "⋓")]⟩,
    ⟨'D', 'D', [("DDotrahd;", "⤑"), ("DD;", "ⅅ")]⟩,
    ⟨'D', 'J', [("DJcy;", "Ђ")]⟩,
    ⟨'D', 'S', [("DScy;", "Ѕ")]⟩,
    ⟨'D', 'Z', [("DZcy;", "Џ")]⟩,
    ⟨'D', 'a', [("Dashv;", "⫤"), ("Darr;", "↡"), ("Dagger;", "‡")]⟩,
    ⟨'D', 'c', [("Dcy;", "Д"), ("Dcaron;", "Ď")]⟩,
    ⟨'D', 'e', [("Delta;", "Δ"), ("Del;", "∇")]⟩,
    ⟨'D', 'f', [("Dfr;", "𝔇")]⟩,
    ⟨'D', 'i', [("DifferentialD;", "ⅆ"), ("Diamond;", "⋄"), ("DiacriticalTilde;", "\u02dc"),
      ("DiacriticalGrave;", "\x60"), ("DiacriticalDoubleAcute;", "\u02dd"),
      ("DiacriticalDot;", "\u02d9"), ("DiacriticalAcute;", "\u00b4")]⟩,
    ⟨'D', 'o', [("Downarrow;", "⇓"), ("DownTeeArrow;", "↧"), ("DownTee;", "⊤"),
      ("DownRightVectorBar;", "⥗"), ("DownRightVector;", "⇁"), ("DownRightTeeVector;", "⥟"),
      ("DownLeftVectorBar;", "⥖"), ("DownLeftVector;", "↽"), ("DownLeftTeeVector;", "⥞"),
      ("DownLeftRightVector;", "⥐"), ("DownBreve;", "\u0311"), ("DownArrowUpArrow;", "⇵"),
      ("DownArrowBar;", "⤓"), ("DownArrow;", "↓"), ("DoubleVerticalBar;", "∥"),
      ("DoubleUpDownArrow;", "⇕"), ("DoubleUpArrow;", "⇑"), ("DoubleRightTee;", "⊨"),
      ("DoubleRightArrow;", "⇒"), ("DoubleLongRightArrow;", "⟹"),
      ("DoubleLongLeftRightArrow;", "⟺"), ("DoubleLongLeftArrow;", "⟸"), ("DoubleLeftTee;", "⫤"),
      ("DoubleLeftRightArrow;", "⇔"), ("DoubleLeftArrow;", "⇐"), ("DoubleDownArrow;", "⇓"),
      ("DoubleDot;", "\u00a8"), ("DoubleContourIntegral;", "∯"), ("DotEqual;", "≐"),
      ("DotDot;", "\u20dc"), ("Dot;", "\u00a8"), ("Dopf;", "𝔻")]⟩,
    ⟨'D', 's', [("Dstrok;", "Đ"), ("Dscr;", "𝒟")]⟩,
    ⟨'E', 'N', [("ENG;", "Ŋ")]⟩,
    ⟨'E', 'T', [("ETH;", "Ð"), ("ETH", "Ð")]⟩,
    ⟨'E', 'a', [("Eacute;", "É"), ("Eacute", "É")]⟩,
    ⟨'E', 'c', [("Ecy;", "Э"), ("Ecirc;", "Ê"), ("Ecirc", "Ê"), ("Ecaron;", "Ě")]⟩,
    ⟨'E', 'd', [("Edot;", "Ė")]⟩,
    ⟨'E', 'f', [("Efr;", "𝔈")]⟩,
    ⟨'E', 'g', [("Egrave;", "È"), ("Egrave", "È")]⟩,
    ⟨'E', 'l', [("Element;", "∈")]⟩,
    ⟨'E', 'm', [("EmptyVerySmallSquare;", "▫"), ("EmptySmallSquare;", "◻"), ("Emacr;", "Ē")]⟩,
    ⟨'E', 'o', [("Eopf;", "𝔼"), ("Eogon;", "Ę")]⟩,
    ⟨'E', 'p', [("Epsilon;", "Ε")]⟩,
    ⟨'E', 'q', [("Equilibrium;", "⇌"), ("EqualTilde;", "≂"), ("Equal;", "⩵")]⟩,
    ⟨'E', 's', [("Esim;", "⩳"), ("Escr;", "ℰ")]⟩,
    ⟨'E', 't', [("Eta;", "Η")]⟩,
    ⟨'E', 'u', [("Euml;", "Ë"), ("Euml", "Ë")]⟩,
    ⟨'E', 'x', [("ExponentialE;", "ⅇ"), ("Exists;", "∃")]⟩,
    ⟨'F', 'c', [("Fcy;", "Ф")]⟩,
    ⟨'F', 'f', [("Ffr;", "𝔉")]⟩,
    ⟨'F', 'i', [("FilledVerySmallSquare;", "▪"), ("FilledSmallSquare;", "◼")]⟩,
    ⟨'F', 'o', [("Fouriertrf;", "ℱ"), ("ForAll;", "∀"), ("Fopf;", "𝔽")]⟩,
    ⟨'F', 's', [("Fscr;", "ℱ")]⟩,
    ⟨'G', 'J', [("GJcy;", "Ѓ")]⟩,
    ⟨'G', 'T', [("GT;", ">"), ("GT", ">")]⟩,
    ⟨'G', 'a', [("Gammad;", "Ϝ"), ("Gamma;", "Γ")]⟩,
    ⟨'G', 'b', [("Gbreve;", "Ğ")]⟩,
    ⟨'G', 'c', [("Gcy;", "Г"), ("Gcirc;", "Ĝ"), ("Gcedil;", "Ģ")]⟩,
    ⟨'G', 'd', [("Gdot;", "Ġ")]⟩,
    ⟨'G', 'f', [("Gfr;", "𝔊")]⟩,
    ⟨'G', 'g', [("Gg;", "⋙")]⟩,
    ⟨'G', 'o', [("Gopf;", "𝔾")]⟩,
    ⟨'G', 'r', [("GreaterTilde;", "≳"), ("GreaterSlantEqual;", "⩾"), ("GreaterLess;", "≷"),
      ("GreaterGreater;", "⪢"), ("GreaterFullEqual;", "≧"), ("GreaterEqualLess;", "⋛"),
      ("GreaterEqual;", "≥")]⟩,
    ⟨'G', 's', [("Gscr;", "𝒢")]⟩,
    ⟨'G', 't', [("Gt;", "≫")]⟩,
    ⟨'H', 'A', [("HARDcy;", "Ъ")]⟩,
    ⟨'H', 'a', [("Hat;", "\x5e"), ("Hacek;", "\u02c7")]⟩,
    ⟨'H', 'c', [("Hcirc;", "Ĥ")]⟩,
    ⟨'H', 'f', [("Hfr;", "ℌ")]⟩,
    ⟨'H', 'i', [("HilbertSpace;", "ℋ")]⟩,
    ⟨'H', 'o', [("HorizontalLine;", "─"), ("Hopf;", "ℍ")]⟩,
    ⟨'H', 's', [("Hstrok;", "Ħ"), ("Hscr;", "ℋ")]⟩,
    ⟨'H', 'u', [("HumpEqual;", "≏"), ("HumpDownHump;", "≎")]⟩,
    ⟨'I', 'E', [("IEcy;", "Е")]⟩,
    ⟨'I', 'J', [("IJlig;", "Ĳ")]⟩,
    ⟨'I', 'O', [("IOcy;", "Ё")]⟩,
    ⟨'I', 'a', [("Iacute;", "Í"), ("Iacute", "Í")]⟩,
    ⟨'I', 'c', [("Icy;", "И"), ("Icirc;", "Î"), ("Icirc", "Î")]⟩,
    ⟨'I', 'd', [("Idot;", "İ")]⟩,
    ⟨'I', 'f', [("Ifr;", "ℑ")]⟩,
    ⟨'I', 'g', [("Igrave;", "Ì"), ("Igrave", "Ì")]⟩,
    ⟨'I', 'm', [("Implies;", "⇒"), ("ImaginaryI;", "ⅈ"), ("Imacr;", "Ī"), ("Im;", "ℑ")]⟩,
    ⟨'I', 'n', [("InvisibleTimes;", "\u2062"), ("InvisibleComma;", "\u2063"),
      ("Intersection;", "⋂"), ("Integral;", "∫"), ("Int;", "∬")]⟩,
    ⟨'I', 'o', [("Iota;", "Ι"), ("Iopf;", "𝕀"), ("Iogon;", "Į")]⟩,
    ⟨'I', 's', [("Iscr;", "ℐ")]⟩,
    ⟨'I', 't', [("Itilde;", "Ĩ")]⟩,
    ⟨'I', 'u', [("Iuml;", "Ï"), ("Iuml", "Ï"), ("Iukcy;", "І")]⟩,
    ⟨'J', 'c', [("Jcy;", "Й"), ("Jcirc;", "Ĵ")]⟩,
    ⟨'J', 'f', [("Jfr;", "𝔍")]⟩,
    ⟨'J', 'o', [("Jopf;", "𝕁")]⟩,
    ⟨'J', 's', [("Jsercy;", "Ј"), ("Jscr;", "𝒥")]⟩,
    ⟨'J', 'u', [("Jukcy;", "Є")]⟩,
    ⟨'K', 'H', [("KHcy;", "Х")]⟩,
    ⟨'K', 'J', [("KJcy;", "Ќ")]⟩,
    ⟨'K', 'a', [("Kappa;", "Κ")]⟩,
    ⟨'K', 'c', [("Kcy;", "К"), ("Kcedil;", "Ķ")]⟩,
    ⟨'K', 'f', [("Kfr;", "𝔎")]⟩,
    ⟨'K', 'o', [("Kopf;", "𝕂")]⟩,
    ⟨'K', 's', [("Kscr;", "𝒦")]⟩,
    ⟨'L', 'J', [("LJcy;", "Љ")]⟩,
    ⟨'L', 'T', [("LT;", "<"), ("LT", "<")]⟩,
    ⟨'L', 'a', [("Larr;", "↞"), ("Laplacetrf;", "ℒ"), ("Lang;", "⟪"), ("Lambda;", "Λ"),
      ("Lacute;", "Ĺ")]⟩,
    ⟨'L', 'c', [("Lcy;", "Л"), ("Lcedil;", "Ļ"), ("Lcaron;", "Ľ")]⟩,
    ⟨'L', 'e', [("LessTilde;", "≲"), ("LessSlantEqual;", "⩽"), ("LessLess;", "⪡"),
      ("LessGreater;", "≶"), ("LessFullEqual;", "≦"), ("LessEqualGreater;", "⋚"),
      ("Leftrightarrow;", "⇔"), ("Leftarrow;", "⇐"), ("LeftVectorBar;", "⥒"), ("LeftVector;", "↼"),
      ("LeftUpVectorBar;", "⥘"), ("LeftUpVector;", "↿"), ("LeftUpTeeVector;", "⥠"),
      ("LeftUpDownVector;", "⥑"), ("LeftTriangleEqual;", "⊴"), ("LeftTriangleBar;", "⧏"),
      ("LeftTriangle;", "⊲"), ("LeftTeeVector;", "⥚"), ("LeftTeeArrow;", "↤"), ("LeftTee;", "⊣"),
      ("LeftRightVector;", "⥎"), ("LeftRightArrow;", "↔"), ("LeftFloor;", "⌊"),
      ("LeftDownVectorBar;", "⥙"), ("LeftDownVector;", "⇃"), ("LeftDownTeeVector;", "⥡"),
      ("LeftDoubleBracket;", "⟦"), ("LeftCeiling;", "⌈"), ("LeftArrowRightArrow;", "⇆"),
      ("LeftArrowBar;", "⇤"), ("LeftArrow;", "←"), ("LeftAngleBracket;", "⟨")]⟩,
    ⟨'L', 'f', [("Lfr;", "𝔏")]⟩,
    ⟨'L', 'l', [("Lleftarrow;", "⇚"), ("Ll;", "⋘")]⟩,
    ⟨'L', 'm', [("Lmidot;", "Ŀ")]⟩,
    ⟨'L', 'o', [("LowerRightArrow;", "↘"), ("LowerLeftArrow;", "↙"), ("Lopf;", "𝕃"),
      ("Longrightarrow;", "⟹"), ("Longleftrightarrow;", "⟺"), ("Longleftarrow;", "⟸"),
      ("LongRightArrow;", "⟶"), ("LongLeftRightArrow;", "⟷"), ("LongLeftArrow;", "⟵")]⟩,
    ⟨'L', 's', [("Lstrok;", "Ł"), ("Lsh;", "↰"), ("Lscr;", "ℒ")]⟩,
    ⟨'L', 't', [("Lt;", "≪")]⟩]

/-- The names that begin with a capital from M to Z. -/
def capitalsMToZ : List Section :=
  [⟨'M', 'a', [("Map;", "⤅")]⟩,
    ⟨'M', 'c', [("Mcy;", "М")]⟩,
    ⟨'M', 'e', [("Mellintrf;", "ℳ"), ("MediumSpace;", "\u205f")]⟩,
    ⟨'M', 'f', [("Mfr;", "𝔐")]⟩,
    ⟨'M', 'i', [("MinusPlus;", "∓")]⟩,
    ⟨'M', 'o', [("Mopf;", "𝕄")]⟩,
    ⟨'M', 's', [("Mscr;", "ℳ")]⟩,
    ⟨'M', 'u', [("Mu;", "Μ")]⟩,
    ⟨'N', 'J', [("NJcy;", "Њ")]⟩,
    ⟨'N', 'a', [("Nacute;", "Ń")]⟩,
    ⟨'N', 'c', [("Ncy;", "Н"), ("Ncedil;", "Ņ"), ("Ncaron;", "Ň")]⟩,
    ⟨'N', 'e', [("NewLine;", "\x0a"), ("NestedLessLess;", "≪"), ("NestedGreaterGreater;", "≫"),
      ("NegativeVeryThinSpace;", "\u200b"), ("NegativeThinSpace;", "\u200b"),
      ("NegativeThickSpace;", "\u200b"), ("NegativeMediumSpace;", "\u200b")]⟩,
    ⟨'N', 'f', [("Nfr;", "𝔑")]⟩,
    ⟨'N', 'o', [("NotVerticalBar;", "∤"), ("NotTildeTilde;", "≉"), ("NotTildeFullEqual;", "≇"),
      ("NotTildeEqual;", "≄"), ("NotTilde;", "≁"), ("NotSupersetEqual;", "⊉"),
      ("NotSuperset;", "⊃\u20d2"), ("NotSucceedsTilde;", "≿\u0338"),
      ("NotSucceedsSlantEqual;", "⋡"), ("NotSucceedsEqual;", "⪰\u0338"), ("NotSucceeds;", "⊁"),
      ("NotSubsetEqual;", "⊈"), ("NotSubset;", "⊂\u20d2"), ("NotSquareSupersetEqual;", "⋣"),
      ("NotSquareSuperset;", "⊐\u0338"), ("NotSquareSubsetEqual;", "⋢"),
      ("NotSquareSubset;", "⊏\u0338"), ("NotRightTriangleEqual;", "⋭"),
      ("NotRightTriangleBar;", "⧐\u0338"), ("NotRightTriangle;", "⋫"), ("NotReverseElement;", "∌"),
      ("NotPrecedesSlantEqual;", "⋠"), ("NotPrecedesEqual;", "⪯\u0338"), ("NotPrecedes;", "⊀"),
      ("NotNestedLessLess;", "⪡\u0338"), ("NotNestedGreaterGreater;", "⪢\u0338"),
      ("NotLessTilde;", "≴"), ("NotLessSlantEqual;", "⩽\u0338"), ("NotLessLess;", "≪\u0338"),
      ("NotLessGreater;", "≸"), ("NotLessEqual;", "≰"), ("NotLess;", "≮"),
      ("NotLeftTriangleEqual;", "⋬"), ("NotLeftTriangleBar;", "⧏\u0338"), ("NotLeftTriangle;", "⋪"),
      ("NotHumpEqual;", "≏\u0338"), ("NotHumpDownHump;", "≎\u0338"), ("NotGreaterTilde;", "≵"),
      ("NotGreaterSlantEqual;", "⩾\u0338"), ("NotGreaterLess;", "≹"),
      ("NotGreaterGreater;", "≫\u0338"), ("NotGreaterFullEqual;", "≧\u0338"),
      ("NotGreaterEqual;", "≱"), ("NotGreater;", "≯"), ("NotExists;", "∄"),
      ("NotEqualTilde;", "≂\u0338"), ("NotEqual;", "≠"), ("NotElement;", "∉"),
      ("NotDoubleVerticalBar;", "∦"), ("NotCupCap;", "≭"), ("NotCongruent;", "≢"), ("Not;", "⫬"),
      ("Nopf;", "ℕ"), ("NonBreakingSpace;", "\u00a0"), ("NoBreak;", "\u2060")]⟩,
    ⟨'N', 's', [("Nscr;", "𝒩")]⟩,
    ⟨'N', 't', [("Ntilde;", "Ñ"), ("Ntilde", "Ñ")]⟩,
    ⟨'N', 'u', [("Nu;", "Ν")]⟩,
    ⟨'O', 'E', [("OElig;", "Œ")]⟩,
    ⟨'O', 'a', [("Oacute;", "Ó"), ("Oacute", "Ó")]⟩,
    ⟨'O', 'c', [("Ocy;", "О"), ("Ocirc;", "Ô"), ("Ocirc", "Ô")]⟩,
    ⟨'O', 'd', [("Odblac;", "Ő")]⟩,
    ⟨'O', 'f', [("Ofr;", "𝔒")]⟩,
    ⟨'O', 'g', [("Ograve;", "Ò"), ("Ograve", "Ò")]⟩,
    ⟨'O', 'm', [("Omicron;", "Ο"), ("Omega;", "Ω"), ("Omacr;", "Ō")]⟩,
    ⟨'O', 'o', [("Oopf;", "𝕆")]⟩,
    ⟨'O', 'p', [("OpenCurlyQuote;", "‘"), ("OpenCurlyDoubleQuote;", "“")]⟩,
    ⟨'O', 'r', [("Or;", "⩔")]⟩,
    ⟨'O', 's', [("Oslash;", "Ø"), ("Oslash", "Ø"), ("Oscr;", "𝒪")]⟩,
    ⟨'O', 't', [("Otimes;", "⨷"), ("Otilde;", "Õ"), ("Otilde", "Õ")]⟩,
    ⟨'O', 'u', [("Ouml;", "Ö"), ("Ouml", "Ö")]⟩,
    ⟨'O', 'v', [("OverParenthesis;", "⏜"), ("OverBracket;", "⎴"), ("OverBrace;", "⏞"),
      ("OverBar;", "‾")]⟩,
    ⟨'P', 'a', [("PartialD;", "∂")]⟩,
    ⟨'P', 'c', [("Pcy;", "П")]⟩,
    ⟨'P', 'f', [("Pfr;", "𝔓")]⟩,
    ⟨'P', 'h', [("Phi;", "Φ")]⟩,
    ⟨'P', 'i', [("Pi;", "Π")]⟩,
    ⟨'P', 'l', [("PlusMinus;", "±")]⟩,
    ⟨'P', 'o', [("Popf;", "ℙ"), ("Poincareplane;", "ℌ")]⟩,
    ⟨'P', 'r', [("Proportional;", "∝"), ("Proportion;", "∷"), ("Product;", "∏"), ("Prime;", "″"),
      ("PrecedesTilde;", "≾"), ("PrecedesSlantEqual;", "≼"), ("PrecedesEqual;", "⪯"),
      ("Precedes;", "≺"), ("Pr;", "⪻")]⟩,
    ⟨'P', 's', [("Psi;", "Ψ"), ("Pscr;", "𝒫")]⟩,
    ⟨'Q', 'U', [("QUOT;", "\x22"), ("QUOT", "\x22")]⟩,
    ⟨'Q', 'f', [("Qfr;", "𝔔")]⟩,
    ⟨'Q', 'o', [("Qopf;", "ℚ")]⟩,
    ⟨'Q', 's', [("Qscr;", "𝒬")]⟩,
    ⟨'R', 'B', [("RBarr;", "⤐")]⟩,
    ⟨'R', 'E', [("REG;", "®"), ("REG", "®")]⟩,
    ⟨'R', 'a', [("Rarrtl;", "⤖"), ("Rarr;", "↠"), ("Rang;", "⟫"), ("Racute;", "Ŕ")]⟩,
    ⟨'R', 'c', [("Rcy;", "Р"), ("Rcedil;", "Ŗ"), ("Rcaron;", "Ř")]⟩,
    ⟨'R', 'e', [("ReverseUpEquilibrium;", "⥯"), ("ReverseEquilibrium;", "⇋"),
      ("ReverseElement;", "∋"), ("Re;", "ℜ")]⟩,
    ⟨'R', 'f', [("Rfr;", "ℜ")]⟩,
    ⟨'R', 'h', [("Rho;", "Ρ")]⟩,
    ⟨'R', 'i', [("Rightarrow;", "⇒"), ("RightVectorBar;", "⥓"), ("RightVector;", "⇀"),
      ("RightUpVectorBar;", "⥔"), ("RightUpVector;", "↾"), ("RightUpTeeVector;", "⥜"),
      ("RightUpDownVector;", "⥏"), ("RightTriangleEqual;", "⊵"), ("RightTriangleBar;", "⧐"),
      ("RightTriangle;", "⊳"), ("RightTeeVector;", "⥛"), ("RightTeeArrow;", "↦"),
      ("RightTee;", "⊢"), ("RightFloor;", "⌋"), ("RightDownVectorBar;", "⥕"),
      ("RightDownVector;", "⇂"), ("RightDownTeeVector;", "⥝"), ("RightDoubleBracket;", "⟧"),
      ("RightCeiling;", "⌉"), ("RightArrowLeftArrow;", "⇄"), ("RightArrowBar;", "⇥"),
      ("RightArrow;", "→"), ("RightAngleBracket;", "⟩")]⟩,
    ⟨'R', 'o', [("RoundImplies;", "⥰"), ("Ropf;", "ℝ")]⟩,
    ⟨'R', 'r', [("Rrightarrow;", "⇛")]⟩,
    ⟨'R', 's', [("Rsh;", "↱"), ("Rscr;", "ℛ")]⟩,
    ⟨'R', 'u', [("RuleDelayed;", "⧴")]⟩,
    ⟨'S', 'H', [("SHcy;", "Ш"), ("SHCHcy;", "Щ")]⟩,
    ⟨'S', 'O', [("SOFTcy;", "Ь")]⟩,
    ⟨'S', 'a', [("Sacute;", "Ś")]⟩,
    ⟨'S', 'c', [("Scy;", "С"), ("Scirc;", "Ŝ"), ("Scedil;", "Ş"), ("Scaron;", "Š"), ("Sc;", "⪼")]⟩,
    ⟨'S', 'f', [("Sfr;", "𝔖")]⟩,
    ⟨'S', 'h', [("ShortUpArrow;", "↑"), ("ShortRightArrow;", "→"), ("ShortLeftArrow;", "←"),
      ("ShortDownArrow;", "↓")]⟩,
    ⟨'S', 'i', [("Sigma;", "Σ")]⟩,
    ⟨'S', 'm', [("SmallCircle;", "∘")]⟩,
    ⟨'S', 'o', [("Sopf;", "𝕊")]⟩,
    ⟨'S', 'q', [("SquareUnion;", "⊔"), ("SquareSupersetEqual;", "⊒"), ("SquareSuperset;", "⊐"),
      ("SquareSubsetEqual;", "⊑"), ("SquareSubset;", "⊏"), ("SquareIntersection;", "⊓"),
      ("Square;", "□"), ("Sqrt;", "√")]⟩,
    ⟨'S', 's', [("Sscr;", "𝒮")]⟩,
    ⟨'S', 't', [("Star;", "⋆")]⟩,
    ⟨'S', 'u', [("Supset;", "⋑"), ("SupersetEqual;", "⊇"), ("Superset;", "⊃"), ("Sup;", "⋑"),
      ("Sum;", "∑"), ("SuchThat;", "∋"), ("SucceedsTilde;", "≿"), ("SucceedsSlantEqual;", "≽"),
      ("SucceedsEqual;", "⪰"), ("Succeeds;", "≻"), ("SubsetEqual;", "⊆"), ("Subset;", "⋐"),
      ("Sub;", "⋐")]⟩,
    ⟨'T', 'H', [("THORN;", "Þ"), ("THORN", "Þ")]⟩,
    ⟨'T', 'R', [("TRADE;", "™")]⟩,
    ⟨'T', 'S', [("TScy;", "Ц"), ("TSHcy;", "Ћ")]⟩,
    ⟨'T', 'a', [("Tau;", "Τ"), ("Tab;", "\x09")]⟩,
    ⟨'T', 'c', [("Tcy;", "Т"), ("Tcedil;", "Ţ"), ("Tcaron;", "Ť")]⟩,
    ⟨'T', 'f', [("Tfr;", "𝔗")]⟩,
    ⟨'T', 'h', [("ThinSpace;", "\u2009"), ("ThickSpace;", "\u205f\u200a"), ("Theta;", "Θ"),
      ("Therefore;", "∴")]⟩,
    ⟨'T', 'i', [("TildeTilde;", "≈"), ("TildeFullEqual;", "≅"), ("TildeEqual;", "≃"),
      ("Tilde;", "∼")]⟩,
    ⟨'T', 'o', [("Topf;", "𝕋")]⟩,
    ⟨'T', 'r', [("TripleDot;", "\u20db")]⟩,
    ⟨'T', 's', [("Tstrok;", "Ŧ"), ("Tscr;", "𝒯")]⟩,
    ⟨'U', 'a', [("Uarrocir;", "⥉"), ("Uarr;", "↟"), ("Uacute;", "Ú"), ("Uacute", "Ú")]⟩,
    ⟨'U', 'b', [("Ubreve;", "Ŭ"), ("Ubrcy;", "Ў")]⟩,
    ⟨'U', 'c', [("Ucy;", "У"), ("Ucirc;", "Û"), ("Ucirc", "Û")]⟩,
    ⟨'U', 'd', [("Udblac;", "Ű")]⟩,
    ⟨'U', 'f', [("Ufr;", "𝔘")]⟩,
    ⟨'U', 'g', [("Ugrave;", "Ù"), ("Ugrave", "Ù")]⟩,
    ⟨'U', 'm', [("Umacr;", "Ū")]⟩,
    ⟨'U', 'n', [("UnionPlus;", "⊎"), ("Union;", "⋃"), ("UnderParenthesis;", "⏝"),
      ("UnderBracket;", "⎵"), ("UnderBrace;", "⏟"), ("UnderBar;", "_")]⟩,
    ⟨'U', 'o', [("Uopf;", "𝕌"), ("Uogon;", "Ų")]⟩,
    ⟨'U', 'p', [("Upsilon;", "Υ"), ("Upsi;", "ϒ"), ("UpperRightArrow;", "↗"),
      ("UpperLeftArrow;", "↖"), ("Updownarrow;", "⇕"), ("Uparrow;", "⇑"), ("UpTeeArrow;", "↥"),
      ("UpTee;", "⊥"), ("UpEquilibrium;", "⥮"), ("UpDownArrow;", "↕"), ("UpArrowDownArrow;", "⇅"),
      ("UpArrowBar;", "⤒"), ("UpArrow;", "↑")]⟩,
    ⟨'U', 'r', [("Uring;", "Ů")]⟩,
    ⟨'U', 's', [("Uscr;", "𝒰")]⟩,
    ⟨'U', 't', [("Utilde;", "Ũ")]⟩,
    ⟨'U', 'u', [("Uuml;", "Ü"), ("Uuml", "Ü")]⟩,
    ⟨'V', 'D', [("VDash;", "⊫")]⟩,
    ⟨'V', 'b', [("Vbar;", "⫫")]⟩,
    ⟨'V', 'c', [("Vcy;", "В")]⟩,
    ⟨'V', 'd', [("Vdashl;", "⫦"), ("Vdash;", "⊩")]⟩,
    ⟨'V', 'e', [("VeryThinSpace;", "\u200a"), ("VerticalTilde;", "≀"), ("VerticalSeparator;", "❘"),
      ("VerticalLine;", "|"), ("VerticalBar;", "∣"), ("Vert;", "‖"), ("Verbar;", "‖"),
      ("Vee;", "⋁")]⟩,
    ⟨'V', 'f', [("Vfr;", "𝔙")]⟩,
    ⟨'V', 'o', [("Vopf;", "𝕍")]⟩,
    ⟨'V', 's', [("Vscr;", "𝒱")]⟩,
    ⟨'V', 'v', [("Vvdash;", "⊪")]⟩,
    ⟨'W', 'c', [("Wcirc;", "Ŵ")]⟩,
    ⟨'W', 'e', [("Wedge;", "⋀")]⟩,
    ⟨'W', 'f', [("Wfr;", "𝔚")]⟩,
    ⟨'W', 'o', [("Wopf;", "𝕎")]⟩,
    ⟨'W', 's', [("Wscr;", "𝒲")]⟩,
    ⟨'X', 'f', [("Xfr;", "𝔛")]⟩,
    ⟨'X', 'i', [("Xi;", "Ξ")]⟩,
    ⟨'X', 'o', [("Xopf;", "𝕏")]⟩,
    ⟨'X', 's', [("Xscr;", "𝒳")]⟩,
    ⟨'Y', 'A', [("YAcy;", "Я")]⟩,
    ⟨'Y', 'I', [("YIcy;", "Ї")]⟩,
    ⟨'Y', 'U', [("YUcy;", "Ю")]⟩,
    ⟨'Y', 'a', [("Yacute;", "Ý"), ("Yacute", "Ý")]⟩,
    ⟨'Y', 'c', [("Ycy;", "Ы"), ("Ycirc;", "Ŷ")]⟩,
    ⟨'Y', 'f', [("Yfr;", "𝔜")]⟩,
    ⟨'Y', 'o', [("Yopf;", "𝕐")]⟩,
    ⟨'Y', 's', [("Yscr;", "𝒴")]⟩,
    ⟨'Y', 'u', [("Yuml;", "Ÿ")]⟩,
    ⟨'Z', 'H', [("ZHcy;", "Ж")]⟩,
    ⟨'Z', 'a', [("Zacute;", "Ź")]⟩,
    ⟨'Z', 'c', [("Zcy;", "З"), ("Zcaron;", "Ž")]⟩,
    ⟨'Z', 'd', [("Zdot;", "Ż")]⟩,
    ⟨'Z', 'e', [("Zeta;", "Ζ"), ("ZeroWidthSpace;", "\u200b")]⟩,
    ⟨'Z', 'f', [("Zfr;", "ℨ")]⟩,
    ⟨'Z', 'o', [("Zopf;", "ℤ")]⟩,
    ⟨'Z', 's', [("Zscr;", "𝒵")]⟩]

/-- The names that begin with a small letter from a to d. -/
def smallAToD : List Section :=
  [⟨'a', 'a', [("aacute;", "á"), ("aacute", "á")]⟩,
    ⟨'a', 'b', [("abreve;", "ă")]⟩,
    ⟨'a', 'c', [("acy;", "а"), ("acute;", "\u00b4"), ("acute", "\u00b4"), ("acirc;", "â"),
      ("acirc", "â"), ("acd;", "∿"), ("acE;", "∾\u0333"), ("ac;", "∾")]⟩,
    ⟨'a', 'e', [("aelig;", "æ"), ("aelig", "æ")]⟩,
    ⟨'a', 'f', [("afr;", "𝔞"), ("af;", "\u2061")]⟩,
    ⟨'a', 'g', [("agrave;", "à"), ("agrave", "à")]⟩,
    ⟨'a', 'l', [("alpha;", "α"), ("aleph;", "ℵ"), ("alefsym;", "ℵ")]⟩,
    ⟨'a', 'm', [("amp;", "&"), ("amp", "&"), ("amalg;", "⨿"), ("amacr;", "ā")]⟩,
    ⟨'a', 'n', [("angzarr;", "⍼"), ("angst;", "Å"), ("angsph;", "∢"), ("angrtvbd;", "⦝"),
      ("angrtvb;", "⊾"), ("angrt;", "∟"), ("angmsdah;", "⦯"), ("angmsdag;", "⦮"),
      ("angmsdaf;", "⦭"), ("angmsdae;", "⦬"), ("angmsdad;", "⦫"), ("angmsdac;", "⦪"),
      ("angmsdab;", "⦩"), ("angmsdaa;", "⦨"), ("angmsd;", "∡"), ("angle;", "∠"), ("ange;", "⦤"),
      ("ang;", "∠"), ("andv;", "⩚"), ("andslope;", "⩘"), ("andd;", "⩜"), ("andand;", "⩕"),
      ("and;", "∧")]⟩,
    ⟨'a', 'o', [("aopf;", "𝕒"), ("aogon;", "ą")]⟩,
    ⟨'a', 'p', [("approxeq;", "≊"), ("approx;", "≈"), ("apos;", "\x27"), ("apid;", "≋"),
      ("ape;", "≊"), ("apacir;", "⩯"), ("apE;", "⩰"), ("ap;", "≈")]⟩,
    ⟨'a', 'r', [("aring;", "å"), ("aring", "å")]⟩,
    ⟨'a', 's', [("asympeq;", "≍"), ("asymp;", "≈"), ("ast;", "*"), ("ascr;", "𝒶")]⟩,
    ⟨'a', 't', [("atilde;", "ã"), ("atilde", "ã")]⟩,
    ⟨'a', 'u', [("auml;", "ä"), ("auml", "ä")]⟩,
    ⟨'a', 'w', [("awint;", "⨑"), ("awconint;", "∳")]⟩,
    ⟨'b', 'N', [("bNot;", "⫭")]⟩,
    ⟨'b', 'a', [("barwedge;", "⌅"), ("barwed;", "⌅"), ("barvee;", "⊽"), ("backsimeq;", "⋍"),
      ("backsim;", "∽"), ("backprime;", "‵"), ("backepsilon;", "϶"), ("backcong;", "≌")]⟩,
    ⟨'b', 'b', [("bbrktbrk;", "⎶"), ("bbrk;", "⎵")]⟩,
    ⟨'b', 'c', [("bcy;", "б"), ("bcong;", "≌")]⟩,
    ⟨'b', 'd', [("bdquo;", "„")]⟩,
    ⟨'b', 'e', [("between;", "≬"), ("beth;", "ℶ"), ("beta;", "β"), ("bernou;", "ℬ"),
      ("bepsi;", "϶"), ("bemptyv;", "⦰"), ("because;", "∵"), ("becaus;", "∵")]⟩,
    ⟨'b', 'f', [("bfr;", "𝔟")]⟩,
    ⟨'b', 'i', [("bigwedge;", "⋀"), ("bigvee;", "⋁"), ("biguplus;", "⨄"), ("bigtriangleup;", "△"),
      ("bigtriangledown;", "▽"), ("bigstar;", "★"), ("bigsqcup;", "⨆"), ("bigotimes;", "⨂"),
      ("bigoplus;", "⨁"), ("bigodot;", "⨀"), ("bigcup;", "⋃"), ("bigcirc;", "◯"),
      ("bigcap;", "⋂")]⟩,
    ⟨'b', 'k', [("bkarow;", "⤍")]⟩,
    ⟨'b', 'l', [("block;", "█"), ("blk34;", "▓"), ("blk14;", "░"), ("blk12;", "▒"), ("blank;", "␣"),
      ("blacktriangleright;", "▸"), ("blacktriangleleft;", "◂"), ("blacktriangledown;", "▾"),
      ("blacktriangle;", "▴"), ("blacksquare;", "▪"), ("blacklozenge;", "⧫")]⟩,
    ⟨'b', 'n', [("bnot;", "⌐"), ("bnequiv;", "≡\u20e5"), ("bne;", "=\u20e5")]⟩,
    ⟨'b', 'o', [("boxvr;", "├"), ("boxvl;", "┤"), ("boxvh;", "┼"), ("boxvR;", "╞"), ("boxvL;", "╡"),
      ("boxvH;", "╪"), ("boxv;", "│"), ("boxur;", "└"), ("boxul;", "┘"), ("boxuR;", "╘"),
      ("boxuL;", "╛"), ("boxtimes;", "⊠"), ("boxplus;", "⊞"), ("boxminus;", "⊟"), ("boxhu;", "┴"),
      ("boxhd;", "┬"), ("boxhU;", "╨"), ("boxhD;", "╥"), ("boxh;", "─"), ("boxdr;", "┌"),
      ("boxdl;", "┐"), ("boxdR;", "╒"), ("boxdL;", "╕"), ("boxbox;", "⧉"), ("boxVr;", "╟"),
      ("boxVl;", "╢"), ("boxVh;", "╫"), ("boxVR;", "╠"), ("boxVL;", "╣"), ("boxVH;", "╬"),
      ("boxV;", "║"), ("boxUr;", "╙"), ("boxUl;", "╜"), ("boxUR;", "╚"), ("boxUL;", "╝"),
      ("boxHu;", "╧"), ("boxHd;", "╤"), ("boxHU;", "╩"), ("boxHD;", "╦"), ("boxH;", "═"),
      ("boxDr;", "╓"), ("boxDl;", "╖"), ("boxDR;", "╔"), ("boxDL;", "╗"), ("bowtie;", "⋈"),
      ("bottom;", "⊥"), ("bot;", "⊥"), ("bopf;", "𝕓")]⟩,
    ⟨'b', 'p', [("bprime;", "‵")]⟩,
    ⟨'b', 'r', [("brvbar;", "¦"), ("brvbar", "¦"), ("breve;", "\u02d8")]⟩,
    ⟨'b', 's', [("bsolhsub;", "⟈"), ("bsolb;", "⧅"), ("bsol;", "\x5c"), ("bsime;", "⋍"),
      ("bsim;", "∽"), ("bsemi;", "⁏"), ("bscr;", "𝒷")]⟩,
    ⟨'b', 'u', [("bumpeq;", "≏"), ("bumpe;", "≏"), ("bumpE;", "⪮"), ("bump;", "≎"),
      ("bullet;", "•"), ("bull;", "•")]⟩,
    ⟨'c', 'a', [("caron;", "\u02c7"), ("caret;", "⁁"), ("caps;", "∩\ufe00"), ("capdot;", "⩀"),
      ("capcup;", "⩇"), ("capcap;", "⩋"), ("capbrcup;", "⩉"), ("capand;", "⩄"), ("cap;", "∩"),
      ("cacute;", "ć")]⟩,
    ⟨'c', 'c', [("ccupssm;", "⩐"), ("ccups;", "⩌"), ("ccirc;", "ĉ"), ("ccedil;", "ç"),
      ("ccedil", "ç"), ("ccaron;", "č"), ("ccaps;", "⩍")]⟩,
    ⟨'c', 'd', [("cdot;", "ċ")]⟩,
    ⟨'c', 'e', [("centerdot;", "·"), ("cent;", "¢"), ("cent", "¢"), ("cemptyv;", "⦲"),
      ("cedil;", "\u00b8"), ("cedil", "\u00b8")]⟩,
    ⟨'c', 'f', [("cfr;", "𝔠")]⟩,
    ⟨'c', 'h', [("chi;", "χ"), ("checkmark;", "✓"), ("check;", "✓"), ("chcy;", "ч")]⟩,
    ⟨'c', 'i', [("cirscir;", "⧂"), ("cirmid;", "⫯"), ("cirfnint;", "⨐"), ("cire;", "≗"),
      ("circleddash;", "⊝"), ("circledcirc;", "⊚"), ("circledast;", "⊛"), ("circledS;", "Ⓢ"),
      ("circledR;", "®"), ("circlearrowright;", "↻"), ("circlearrowleft;", "↺"), ("circeq;", "≗"),
      ("circ;", "\u02c6"), ("cirE;", "⧃"), ("cir;", "○")]⟩,
    ⟨'c', 'l', [("clubsuit;", "♣"), ("clubs;", "♣")]⟩,
    ⟨'c', 'o', [("copysr;", "℗"), ("copy;", "©"), ("copy", "©"), ("coprod;", "∐"), ("copf;", "𝕔"),
      ("conint;", "∮"), ("congdot;", "⩭"), ("cong;", "≅"), ("complexes;", "ℂ"),
      ("complement;", "∁"), ("compfn;", "∘"), ("comp;", "∁"), ("commat;", "@"), ("comma;", ","),
      ("coloneq;", "≔"), ("colone;", "≔"), ("colon;", ":")]⟩,
    ⟨'c', 'r', [("cross;", "✗"), ("crarr;", "↵")]⟩,
    ⟨'c', 's', [("csupe;", "⫒"), ("csup;", "⫐"), ("csube;", "⫑"), ("csub;", "⫏"), ("cscr;", "𝒸")]⟩,
    ⟨'c', 't', [("ctdot;", "⋯")]⟩,
    ⟨'c', 'u', [("cuwed;", "⋏"), ("cuvee;", "⋎"), ("curvearrowright;", "↷"),
      ("curvearrowleft;", "↶"), ("curren;", "¤"), ("curren", "¤"), ("curlywedge;", "⋏"),
      ("curlyvee;", "⋎"), ("curlyeqsucc;", "⋟"), ("curlyeqprec;", "⋞"), ("curarrm;", "⤼"),
      ("curarr;", "↷"), ("cups;", "∪\ufe00"), ("cupor;", "⩅"), ("cupdot;", "⊍"), ("cupcup;", "⩊"),
      ("cupcap;", "⩆"), ("cupbrcap;", "⩈"), ("cup;", "∪"), ("cularrp;", "⤽"), ("cularr;", "↶"),
      ("cuesc;", "⋟"), ("cuepr;", "⋞"), ("cudarrr;", "⤵"), ("cudarrl;", "⤸")]⟩,
    ⟨'c', 'w', [("cwint;", "∱"), ("cwconint;", "∲")]⟩,
    ⟨'c', 'y', [("cylcty;", "⌭")]⟩,
    ⟨'d', 'A', [("dArr;", "⇓")]⟩,
    ⟨'d', 'H', [("dHar;", "⥥")]⟩,
    ⟨'d', 'a', [("dashv;", "⊣"), ("dash;", "‐"), ("darr;", "↓"), ("daleth;", "ℸ"),
      ("dagger;", "†")]⟩,
    ⟨'d', 'b', [("dblac;", "\u02dd"), ("dbkarow;", "⤏")]⟩,
    ⟨'d', 'c', [("dcy;", "д"), ("dcaron;", "ď")]⟩,
    ⟨'d', 'd', [("ddotseq;", "⩷"), ("ddarr;", "⇊"), ("ddagger;", "‡"), ("dd;", "ⅆ")]⟩,
    ⟨'d', 'e', [("demptyv;", "⦱"), ("delta;", "δ"), ("deg;", "°"), ("deg", "°")]⟩,
    ⟨'d', 'f', [("dfr;", "𝔡"), ("dfisht;", "⥿")]⟩,
    ⟨'d', 'h', [("dharr;", "⇂"), ("dharl;", "⇃")]⟩,
    ⟨'d', 'i', [("divonx;", "⋇"), ("divideontimes;", "⋇"), ("divide;", "÷"), ("divide", "÷"),
      ("div;", "÷"), ("disin;", "⋲"), ("digamma;", "ϝ"), ("die;", "\u00a8"), ("diams;", "♦"),
      ("diamondsuit;", "♦"), ("diamond;", "⋄"), ("diam;", "⋄")]⟩,
    ⟨'d', 'j', [("djcy;", "ђ")]⟩,
    ⟨'d', 'l', [("dlcrop;", "⌍"), ("dlcorn;", "⌞")]⟩,
    ⟨'d', 'o', [("downharpoonright;", "⇂"), ("downharpoonleft;", "⇃"), ("downdownarrows;", "⇊"),
      ("downarrow;", "↓"), ("doublebarwedge;", "⌆"), ("dotsquare;", "⊡"), ("dotplus;", "∔"),
      ("dotminus;", "∸"), ("doteqdot;", "≑"), ("doteq;", "≐"), ("dot;", "\u02d9"), ("dopf;", "𝕕"),
      ("dollar;", "$")]⟩,
    ⟨'d', 'r', [("drcrop;", "⌌"), ("drcorn;", "⌟"), ("drbkarow;", "⤐")]⟩,
    ⟨'d', 's', [("dstrok;", "đ"), ("dsol;", "⧶"), ("dscy;", "ѕ"), ("dscr;", "𝒹")]⟩,
    ⟨'d', 't', [("dtrif;", "▾"), ("dtri;", "▿"), ("dtdot;", "⋱")]⟩,
    ⟨'d', 'u', [("duhar;", "⥯"), ("duarr;", "⇵")]⟩,
    ⟨'d', 'w', [("dwangle;", "⦦")]⟩,
    ⟨'d', 'z', [("dzigrarr;", "⟿"), ("dzcy;", "џ")]⟩]

/-- The names that begin with a small letter from e to k. -/
def smallEToK : List Section :=
  [⟨'e', 'D', [("eDot;", "≑"), ("eDDot;", "⩷")]⟩,
    ⟨'e', 'a', [("easter;", "⩮"), ("eacute;", "é"), ("eacute", "é")]⟩,
    ⟨'e', 'c', [("ecy;", "э"), ("ecolon;", "≕"), ("ecirc;", "ê"), ("ecirc", "ê"), ("ecir;", "≖"),
      ("ecaron;", "ě")]⟩,
    ⟨'e', 'd', [("edot;", "ė")]⟩,
    ⟨'e', 'e', [("ee;", "ⅇ")]⟩,
    ⟨'e', 'f', [("efr;", "𝔢"), ("efDot;", "≒")]⟩,
    ⟨'e', 'g', [("egsdot;", "⪘"), ("egs;", "⪖"), ("egrave;", "è"), ("egrave", "è"), ("eg;", "⪚")]⟩,
    ⟨'e', 'l', [("elsdot;", "⪗"), ("els;", "⪕"), ("ell;", "ℓ"), ("elinters;", "⏧"), ("el;", "⪙")]⟩,
    ⟨'e', 'm', [("emsp;", "\u2003"), ("emsp14;", "\u2005"), ("emsp13;", "\u2004"), ("emptyv;", "∅"),
      ("emptyset;", "∅"), ("empty;", "∅"), ("emacr;", "ē")]⟩,
    ⟨'e', 'n', [("ensp;", "\u2002"), ("eng;", "ŋ")]⟩,
    ⟨'e', 'o', [("eopf;", "𝕖"), ("eogon;", "ę")]⟩,
    ⟨'e', 'p', [("epsiv;", "ϵ"), ("epsilon;", "ε"), ("epsi;", "ε"), ("eplus;", "⩱"),
      ("eparsl;", "⧣"), ("epar;", "⋕")]⟩,
    ⟨'e', 'q', [("eqvparsl;", "⧥"), ("equivDD;", "⩸"), ("equiv;", "≡"), ("equest;", "≟"),
      ("equals;", "="), ("eqslantless;", "⪕"), ("eqslantgtr;", "⪖"), ("eqsim;", "≂"),
      ("eqcolon;", "≕"), ("eqcirc;", "≖")]⟩,
    ⟨'e', 'r', [("erarr;", "⥱"), ("erDot;", "≓")]⟩,
    ⟨'e', 's', [("esim;", "≂"), ("esdot;", "≐"), ("escr;", "ℯ")]⟩,
    ⟨'e', 't', [("eth;", "ð"), ("eth", "ð"), ("eta;", "η")]⟩,
    ⟨'e', 'u', [("euro;", "€"), ("euml;", "ë"), ("euml", "ë")]⟩,
    ⟨'e', 'x', [("exponentiale;", "ⅇ"), ("expectation;", "ℰ"), ("exist;", "∃"), ("excl;", "!")]⟩,
    ⟨'f', 'a', [("fallingdotseq;", "≒")]⟩,
    ⟨'f', 'c', [("fcy;", "ф")]⟩,
    ⟨'f', 'e', [("female;", "♀")]⟩,
    ⟨'f', 'f', [("ffr;", "𝔣"), ("ffllig;", "ﬄ"), ("fflig;", "ﬀ"), ("ffilig;", "ﬃ")]⟩,
    ⟨'f', 'i', [("filig;", "ﬁ")]⟩,
    ⟨'f', 'j', [("fjlig;", "fj")]⟩,
    ⟨'f', 'l', [("fltns;", "▱"), ("fllig;", "ﬂ"), ("flat;", "♭")]⟩,
    ⟨'f', 'n', [("fnof;", "ƒ")]⟩,
    ⟨'f', 'o', [("forkv;", "⫙"), ("fork;", "⋔"), ("forall;", "∀"), ("fopf;", "𝕗")]⟩,
    ⟨'f', 'p', [("fpartint;", "⨍")]⟩,
    ⟨'f', 'r', [("frown;", "⌢"), ("frasl;", "⁄"), ("frac78;", "⅞"), ("frac58;", "⅝"),
      ("frac56;", "⅚"), ("frac45;", "⅘"), ("frac38;", "⅜"), ("frac35;", "⅗"), ("frac34;", "¾"),
      ("frac34", "¾"), ("frac25;", "⅖"), ("frac23;", "⅔"), ("frac18;", "⅛"), ("frac16;", "⅙"),
      ("frac15;", "⅕"), ("frac14;", "¼"), ("frac14", "¼"), ("frac13;", "⅓"), ("frac12;", "½"),
      ("frac12", "½")]⟩,
    ⟨'f', 's', [("fscr;", "𝒻")]⟩,
    ⟨'g', 'E', [("gEl;", "⪌"), ("gE;", "≧")]⟩,
    ⟨'g', 'a', [("gap;", "⪆"), ("gammad;", "ϝ"), ("gamma;", "γ"), ("gacute;", "ǵ")]⟩,
    ⟨'g', 'b', [("gbreve;", "ğ")]⟩,
    ⟨'g', 'c', [("gcy;", "г"), ("gcirc;", "ĝ")]⟩,
    ⟨'g', 'd', [("gdot;", "ġ")]⟩,
    ⟨'g', 'e', [("gesles;", "⪔"), ("gesl;", "⋛\ufe00"), ("gesdotol;", "⪄"), ("gesdoto;", "⪂"),
      ("gesdot;", "⪀"), ("gescc;", "⪩"), ("ges;", "⩾"), ("geqslant;", "⩾"), ("geqq;", "≧"),
      ("geq;", "≥"), ("gel;", "⋛"), ("ge;", "≥")]⟩,
    ⟨'g', 'f', [("gfr;", "𝔤")]⟩,
    ⟨'g', 'g', [("ggg;", "⋙"), ("gg;", "≫")]⟩,
    ⟨'g', 'i', [("gimel;", "ℷ")]⟩,
    ⟨'g', 'j', [("gjcy;", "ѓ")]⟩,
    ⟨'g', 'l', [("glj;", "⪤"), ("gla;", "⪥"), ("glE;", "⪒"), ("gl;", "≷")]⟩,
    ⟨'g', 'n', [("gnsim;", "⋧"), ("gneqq;", "≩"), ("gneq;", "⪈"), ("gne;", "⪈"), ("gnapprox;", "⪊"),
      ("gnap;", "⪊"), ("gnE;", "≩")]⟩,
    ⟨'g', 'o', [("gopf;", "𝕘")]⟩,
    ⟨'g', 'r', [("grave;", "\x60")]⟩,
    ⟨'g', 's', [("gsiml;", "⪐"), ("gsime;", "⪎"), ("gsim;", "≳"), ("gscr;", "ℊ")]⟩,
    ⟨'g', 't', [("gtrsim;", "≳"), ("gtrless;", "≷"), ("gtreqqless;", "⪌"), ("gtreqless;", "⋛"),
      ("gtrdot;", "⋗"), ("gtrarr;", "⥸"), ("gtrapprox;", "⪆"), ("gtquest;", "⩼"), ("gtlPar;", "⦕"),
      ("gtdot;", "⋗"), ("gtcir;", "⩺"), ("gtcc;", "⪧"), ("gt;", ">"), ("gt", ">")]⟩,
    ⟨'g', 'v', [("gvnE;", "≩\ufe00"), ("gvertneqq;", "≩\ufe00")]⟩,
    ⟨'h', 'A', [("hArr;", "⇔")]⟩,
    ⟨'h', 'a', [("harrw;", "↭"), ("harrcir;", "⥈"), ("harr;", "↔"), ("hardcy;", "ъ"),
      ("hamilt;", "ℋ"), ("half;", "½"), ("hairsp;", "\u200a")]⟩,
    ⟨'h', 'b', [("hbar;", "ℏ")]⟩,
    ⟨'h', 'c', [("hcirc;", "ĥ")]⟩,
    ⟨'h', 'e', [("hercon;", "⊹"), ("hellip;", "…"), ("heartsuit;", "♥"), ("hearts;", "♥")]⟩,
    ⟨'h', 'f', [("hfr;", "𝔥")]⟩,
    ⟨'h', 'k', [("hkswarow;", "⤦"), ("hksearow;", "⤥")]⟩,
    ⟨'h', 'o', [("horbar;", "―"), ("hopf;", "𝕙"), ("hookrightarrow;", "↪"), ("hookleftarrow;", "↩"),
      ("homtht;", "∻"), ("hoarr;", "⇿")]⟩,
    ⟨'h', 's', [("hstrok;", "ħ"), ("hslash;", "ℏ"), ("hscr;", "𝒽")]⟩,
    ⟨'h', 'y', [("hyphen;", "‐"), ("hybull;", "⁃")]⟩,
    ⟨'i', 'a', [("iacute;", "í"), ("iacute", "í")]⟩,
    ⟨'i', 'c', [("icy;", "и"), ("icirc;", "î"), ("icirc", "î"), ("ic;", "\u2063")]⟩,
    ⟨'i', 'e', [("iexcl;", "¡"), ("iexcl", "¡"), ("iecy;", "е")]⟩,
    ⟨'i', 'f', [("ifr;", "𝔦"), ("iff;", "⇔")]⟩,
    ⟨'i', 'g', [("igrave;", "ì"), ("igrave", "ì")]⟩,
    ⟨'i', 'i', [("iiota;", "℩"), ("iinfin;", "⧜"), ("iiint;", "∭"), ("iiiint;", "⨌"),
      ("ii;", "ⅈ")]⟩,
    ⟨'i', 'j', [("ijlig;", "ĳ")]⟩,
    ⟨'i', 'm', [("imped;", "Ƶ"), ("imof;", "⊷"), ("imath;", "ı"), ("imagpart;", "ℑ"),
      ("imagline;", "ℐ"), ("image;", "ℑ"), ("imacr;", "ī")]⟩,
    ⟨'i', 'n', [("intprod;", "⨼"), ("intlarhk;", "⨗"), ("intercal;", "⊺"), ("integers;", "ℤ"),
      ("intcal;", "⊺"), ("int;", "∫"), ("inodot;", "ı"), ("infintie;", "⧝"), ("infin;", "∞"),
      ("incare;", "℅"), ("in;", "∈")]⟩,
    ⟨'i', 'o', [("iota;", "ι"), ("iopf;", "𝕚"), ("iogon;", "į"), ("iocy;", "ё")]⟩,
    ⟨'i', 'p', [("iprod;", "⨼")]⟩,
    ⟨'i', 'q', [("iquest;", "¿"), ("iquest", "¿")]⟩,
    ⟨'i', 's', [("isinv;", "∈"), ("isinsv;", "⋳"), ("isins;", "⋴"), ("isindot;", "⋵"),
      ("isinE;", "⋹"), ("isin;", "∈"), ("iscr;", "𝒾")]⟩,
    ⟨'i', 't', [("itilde;", "ĩ"), ("it;", "\u2062")]⟩,
    ⟨'i', 'u', [("iuml;", "ï"), ("iuml", "ï"), ("iukcy;", "і")]⟩,
    ⟨'j', 'c', [("jcy;", "й"), ("jcirc;", "ĵ")]⟩,
    ⟨'j', 'f', [("jfr;", "𝔧")]⟩,
    ⟨'j', 'm', [("jmath;", "ȷ")]⟩,
    ⟨'j', 'o', [("jopf;", "𝕛")]⟩,
    ⟨'j', 's', [("jsercy;", "ј"), ("jscr;", "𝒿")]⟩,
    ⟨'j', 'u', [("jukcy;", "є")]⟩,
    ⟨'k', 'a', [("kappav;", "ϰ"), ("kappa;", "κ")]⟩,
    ⟨'k', 'c', [("kcy;", "к"), ("kcedil;", "ķ")]⟩,
    ⟨'k', 'f', [("kfr;", "𝔨")]⟩,
    ⟨'k', 'g', [("kgreen;", "ĸ")]⟩,
    ⟨'k', 'h', [("khcy;", "х")]⟩,
    ⟨'k', 'j', [("kjcy;", "ќ")]⟩,
    ⟨'k', 'o', [("kopf;", "𝕜")]⟩,
    ⟨'k', 's', [("kscr;", "𝓀")]⟩]

/-- The names that begin with a small letter from l to n. -/
def smallLToN : List Section :=
  [⟨'l', 'A', [("lAtail;", "⤛"), ("lArr;", "⇐"), ("lAarr;", "⇚")]⟩,
    ⟨'l', 'B', [("lBarr;", "⤎")]⟩,
    ⟨'l', 'E', [("lEg;", "⪋"), ("lE;", "≦")]⟩,
    ⟨'l', 'H', [("lHar;", "⥢")]⟩,
    ⟨'l', 'a', [("lates;", "⪭\ufe00"), ("late;", "⪭"), ("latail;", "⤙"), ("lat;", "⪫"),
      ("larrtl;", "↢"), ("larrsim;", "⥳"), ("larrpl;", "⤹"), ("larrlp;", "↫"), ("larrhk;", "↩"),
      ("larrfs;", "⤝"), ("larrbfs;", "⤟"), ("larrb;", "⇤"), ("larr;", "←"), ("laquo;", "«"),
      ("laquo", "«"), ("lap;", "⪅"), ("langle;", "⟨"), ("langd;", "⦑"), ("lang;", "⟨"),
      ("lambda;", "λ"), ("lagran;", "ℒ"), ("laemptyv;", "⦴"), ("lacute;", "ĺ")]⟩,
    ⟨'l', 'b', [("lbrkslu;", "⦍"), ("lbrksld;", "⦏"), ("lbrke;", "⦋"), ("lbrack;", "["),
      ("lbrace;", "\x7b"), ("lbbrk;", "❲"), ("lbarr;", "⤌")]⟩,
    ⟨'l', 'c', [("lcy;", "л"), ("lcub;", "\x7b"), ("lceil;", "⌈"), ("lcedil;", "ļ"),
      ("lcaron;", "ľ")]⟩,
    ⟨'l', 'd', [("ldsh;", "↲"), ("ldrushar;", "⥋"), ("ldrdhar;", "⥧"), ("ldquor;", "„"),
      ("ldquo;", "“"), ("ldca;", "⤶")]⟩,
    ⟨'l', 'e', [("lesssim;", "≲"), ("lessgtr;", "≶"), ("lesseqqgtr;", "⪋"), ("lesseqgtr;", "⋚"),
      ("lessdot;", "⋖"), ("lessapprox;", "⪅"), ("lesges;", "⪓"), ("lesg;", "⋚\ufe00"),
      ("lesdotor;", "⪃"), ("lesdoto;", "⪁"), ("lesdot;", "⩿"), ("lescc;", "⪨"), ("les;", "⩽"),
      ("leqslant;", "⩽"), ("leqq;", "≦"), ("leq;", "≤"), ("leg;", "⋚"), ("leftthreetimes;", "⋋"),
      ("leftrightsquigarrow;", "↭"), ("leftrightharpoons;", "⇋"), ("leftrightarrows;", "⇆"),
      ("leftrightarrow;", "↔"), ("leftleftarrows;", "⇇"), ("leftharpoonup;", "↼"),
      ("leftharpoondown;", "↽"), ("leftarrowtail;", "↢"), ("leftarrow;", "←"), ("le;", "≤")]⟩,
    ⟨'l', 'f', [("lfr;", "𝔩"), ("lfloor;", "⌊"), ("lfisht;", "⥼")]⟩,
    ⟨'l', 'g', [("lgE;", "⪑"), ("lg;", "≶")]⟩,
    ⟨'l', 'h', [("lhblk;", "▄"), ("lharul;", "⥪"), ("lharu;", "↼"), ("lhard;", "↽")]⟩,
    ⟨'l', 'j', [("ljcy;", "љ")]⟩,
    ⟨'l', 'l', [("lltri;", "◺"), ("llhard;", "⥫"), ("llcorner;", "⌞"), ("llarr;", "⇇"),
      ("ll;", "≪")]⟩,
    ⟨'l', 'm', [("lmoustache;", "⎰"), ("lmoust;", "⎰"), ("lmidot;", "ŀ")]⟩,
    ⟨'l', 'n', [("lnsim;", "⋦"), ("lneqq;", "≨"), ("lneq;", "⪇"), ("lne;", "⪇"), ("lnapprox;", "⪉"),
      ("lnap;", "⪉"), ("lnE;", "≨")]⟩,
    ⟨'l', 'o', [("lozf;", "⧫"), ("lozenge;", "◊"), ("loz;", "◊"), ("lowbar;", "_"),
      ("lowast;", "∗"), ("lotimes;", "⨴"), ("loplus;", "⨭"), ("lopf;", "𝕝"), ("lopar;", "⦅"),
      ("looparrowright;", "↬"), ("looparrowleft;", "↫"), ("longrightarrow;", "⟶"),
      ("longmapsto;", "⟼"), ("longleftrightarrow;", "⟷"), ("longleftarrow;", "⟵"), ("lobrk;", "⟦"),
      ("loarr;", "⇽"), ("loang;", "⟬")]⟩,
    ⟨'l', 'p', [("lparlt;", "⦓"), ("lpar;", "(")]⟩,
    ⟨'l', 'r', [("lrtri;", "⊿"), ("lrm;", "\u200e"), ("lrhard;", "⥭"), ("lrhar;", "⇋"),
      ("lrcorner;", "⌟"), ("lrarr;", "⇆")]⟩,
    ⟨'l', 's', [("lstrok;", "ł"), ("lsquor;", "‚"), ("lsquo;", "‘"), ("lsqb;", "["),
      ("lsimg;", "⪏"), ("lsime;", "⪍"), ("lsim;", "≲"), ("lsh;", "↰"), ("lscr;", "𝓁"),
      ("lsaquo;", "‹")]⟩,
    ⟨'l', 't', [("ltrif;", "◂"), ("ltrie;", "⊴"), ("ltri;", "◃"), ("ltrPar;", "⦖"),
      ("ltquest;", "⩻"), ("ltlarr;", "⥶"), ("ltimes;", "⋉"), ("lthree;", "⋋"), ("ltdot;", "⋖"),
      ("ltcir;", "⩹"), ("ltcc;", "⪦"), ("lt;", "<"), ("lt", "<")]⟩,
    ⟨'l', 'u', [("luruhar;", "⥦"), ("lurdshar;", "⥊")]⟩,
    ⟨'l', 'v', [("lvnE;", "≨\ufe00"), ("lvertneqq;", "≨\ufe00")]⟩,
    ⟨'m', 'D', [("mDDot;", "∺")]⟩,
    ⟨'m', 'a', [("marker;", "▮"), ("mapstoup;", "↥"), ("mapstoleft;", "↤"), ("mapstodown;", "↧"),
      ("mapsto;", "↦"), ("map;", "↦"), ("maltese;", "✠"), ("malt;", "✠"), ("male;", "♂"),
      ("macr;", "\u00af"), ("macr", "\u00af")]⟩,
    ⟨'m', 'c', [("mcy;", "м"), ("mcomma;", "⨩")]⟩,
    ⟨'m', 'd', [("mdash;", "—")]⟩,
    ⟨'m', 'e', [("measuredangle;", "∡")]⟩,
    ⟨'m', 'f', [("mfr;", "𝔪")]⟩,
    ⟨'m', 'h', [("mho;", "℧")]⟩,
    ⟨'m', 'i', [("minusdu;", "⨪"), ("minusd;", "∸"), ("minusb;", "⊟"), ("minus;", "−"),
      ("middot;", "·"), ("middot", "·"), ("midcir;", "⫰"), ("midast;", "*"), ("mid;", "∣"),
      ("micro;", "µ"), ("micro", "µ")]⟩,
    ⟨'m', 'l', [("mldr;", "…"), ("mlcp;", "⫛")]⟩,
    ⟨'m', 'n', [("mnplus;", "∓")]⟩,
    ⟨'m', 'o', [("mopf;", "𝕞"), ("models;", "⊧")]⟩,
    ⟨'m', 'p', [("mp;", "∓")]⟩,
    ⟨'m', 's', [("mstpos;", "∾"), ("mscr;", "𝓂")]⟩,
    ⟨'m', 'u', [("mumap;", "⊸"), ("multimap;", "⊸"), ("mu;", "μ")]⟩,
    ⟨'n', 'G', [("nGtv;", "≫\u0338"), ("nGt;", "≫\u20d2"), ("nGg;", "⋙\u0338")]⟩,
    ⟨'n', 'L', [("nLtv;", "≪\u0338"), ("nLt;", "≪\u20d2"), ("nLl;", "⋘\u0338"),
      ("nLeftrightarrow;", "⇎"), ("nLeftarrow;", "⇍")]⟩,
    ⟨'n', 'R', [("nRightarrow;", "⇏")]⟩,
    ⟨'n', 'V', [("nVdash;", "⊮"), ("nVDash;", "⊯")]⟩,
    ⟨'n', 'a', [("naturals;", "ℕ"), ("natural;", "♮"), ("natur;", "♮"), ("napprox;", "≉"),
      ("napos;", "ŉ"), ("napid;", "≋\u0338"), ("napE;", "⩰\u0338"), ("nap;", "≉"),
      ("nang;", "∠\u20d2"), ("nacute;", "ń"), ("nabla;", "∇")]⟩,
    ⟨'n', 'b', [("nbumpe;", "≏\u0338"), ("nbump;", "≎\u0338"), ("nbsp;", "\u00a0"),
      ("nbsp", "\u00a0")]⟩,
    ⟨'n', 'c', [("ncy;", "н"), ("ncup;", "⩂"), ("ncongdot;", "⩭\u0338"), ("ncong;", "≇"),
      ("ncedil;", "ņ"), ("ncaron;", "ň"), ("ncap;", "⩃")]⟩,
    ⟨'n', 'd', [("ndash;", "–")]⟩,
    ⟨'n', 'e', [("nexists;", "∄"), ("nexist;", "∄"), ("nesim;", "≂\u0338"), ("nesear;", "⤨"),
      ("nequiv;", "≢"), ("nedot;", "≐\u0338"), ("nearrow;", "↗"), ("nearr;", "↗"), ("nearhk;", "⤤"),
      ("neArr;", "⇗"), ("ne;", "≠")]⟩,
    ⟨'n', 'f', [("nfr;", "𝔫")]⟩,
    ⟨'n', 'g', [("ngtr;", "≯"), ("ngt;", "≯"), ("ngsim;", "≵"), ("nges;", "⩾\u0338"),
      ("ngeqslant;", "⩾\u0338"), ("ngeqq;", "≧\u0338"), ("ngeq;", "≱"), ("nge;", "≱"),
      ("ngE;", "≧\u0338")]⟩,
    ⟨'n', 'h', [("nhpar;", "⫲"), ("nharr;", "↮"), ("nhArr;", "⇎")]⟩,
    ⟨'n', 'i', [("niv;", "∋"), ("nisd;", "⋺"), ("nis;", "⋼"), ("ni;", "∋")]⟩,
    ⟨'n', 'j', [("njcy;", "њ")]⟩,
    ⟨'n', 'l', [("nltrie;", "⋬"), ("nltri;", "⋪"), ("nlt;", "≮"), ("nlsim;", "≴"), ("nless;", "≮"),
      ("nles;", "⩽\u0338"), ("nleqslant;", "⩽\u0338"), ("nleqq;", "≦\u0338"), ("nleq;", "≰"),
      ("nleftrightarrow;", "↮"), ("nleftarrow;", "↚"), ("nle;", "≰"), ("nldr;", "‥"),
      ("nlarr;", "↚"), ("nlE;", "≦\u0338"), ("nlArr;", "⇍")]⟩,
    ⟨'n', 'm', [("nmid;", "∤")]⟩,
    ⟨'n', 'o', [("notnivc;", "⋽"), ("notnivb;", "⋾"), ("notniva;", "∌"), ("notni;", "∌"),
      ("notinvc;", "⋶"), ("notinvb;", "⋷"), ("notinva;", "∉"), ("notindot;", "⋵\u0338"),
      ("notinE;", "⋹\u0338"), ("notin;", "∉"), ("not;", "¬"), ("not", "¬"), ("nopf;", "𝕟")]⟩,
    ⟨'n', 'p', [("npreceq;", "⪯\u0338"), ("nprec;", "⊀"), ("npre;", "⪯\u0338"), ("nprcue;", "⋠"),
      ("npr;", "⊀"), ("npolint;", "⨔"), ("npart;", "∂\u0338"), ("nparsl;", "⫽\u20e5"),
      ("nparallel;", "∦"), ("npar;", "∦")]⟩,
    ⟨'n', 'r', [("nrtrie;", "⋭"), ("nrtri;", "⋫"), ("nrightarrow;", "↛"), ("nrarrw;", "↝\u0338"),
      ("nrarrc;", "⤳\u0338"), ("nrarr;", "↛"), ("nrArr;", "⇏")]⟩,
    ⟨'n', 's', [("nsupseteqq;", "⫆\u0338"), ("nsupseteq;", "⊉"), ("nsupset;", "⊃\u20d2"),
      ("nsupe;", "⊉"), ("nsupE;", "⫆\u0338"), ("nsup;", "⊅"), ("nsucceq;", "⪰\u0338"),
      ("nsucc;", "⊁"), ("nsubseteqq;", "⫅\u0338"), ("nsubseteq;", "⊈"), ("nsubset;", "⊂\u20d2"),
      ("nsube;", "⊈"), ("nsubE;", "⫅\u0338"), ("nsub;", "⊄"), ("nsqsupe;", "⋣"), ("nsqsube;", "⋢"),
      ("nspar;", "∦"), ("nsmid;", "∤"), ("nsimeq;", "≄"), ("nsime;", "≄"), ("nsim;", "≁"),
      ("nshortparallel;", "∦"), ("nshortmid;", "∤"), ("nscr;", "𝓃"), ("nsce;", "⪰\u0338"),
      ("nsccue;", "⋡"), ("nsc;", "⊁")]⟩,
    ⟨'n', 't', [("ntrianglerighteq;", "⋭"), ("ntriangleright;", "⋫"), ("ntrianglelefteq;", "⋬"),
      ("ntriangleleft;", "⋪"), ("ntlg;", "≸"), ("ntilde;", "ñ"), ("ntilde", "ñ"), ("ntgl;", "≹")]⟩,
    ⟨'n', 'u', [("numsp;", "\u2007"), ("numero;", "№"), ("num;", "#"), ("nu;", "ν")]⟩,
    ⟨'n', 'v', [("nvsim;", "∼\u20d2"), ("nvrtrie;", "⊵\u20d2"), ("nvrArr;", "⤃"),
      ("nvltrie;", "⊴\u20d2"), ("nvlt;", "<\u20d2"), ("nvle;", "≤\u20d2"), ("nvlArr;", "⤂"),
      ("nvinfin;", "⧞"), ("nvgt;", ">\u20d2"), ("nvge;", "≥\u20d2"), ("nvdash;", "⊬"),
      ("nvap;", "≍\u20d2"), ("nvHarr;", "⤄"), ("nvDash;", "⊭")]⟩,
    ⟨'n', 'w', [("nwnear;", "⤧"), ("nwarrow;", "↖"), ("nwarr;", "↖"), ("nwarhk;", "⤣"),
      ("nwArr;", "⇖")]⟩]

/-- The names that begin with a small letter from o to r. -/
def smallOToR : List Section :=
  [⟨'o', 'S', [("oS;", "Ⓢ")]⟩,
    ⟨'o', 'a', [("oast;", "⊛"), ("oacute;", "ó"), ("oacute", "ó")]⟩,
    ⟨'o', 'c', [("ocy;", "о"), ("ocirc;", "ô"), ("ocirc", "ô"), ("ocir;", "⊚")]⟩,
    ⟨'o', 'd', [("odsold;", "⦼"), ("odot;", "⊙"), ("odiv;", "⨸"), ("odblac;", "ő"),
      ("odash;", "⊝")]⟩,
    ⟨'o', 'e', [("oelig;", "œ")]⟩,
    ⟨'o', 'f', [("ofr;", "𝔬"), ("ofcir;", "⦿")]⟩,
    ⟨'o', 'g', [("ogt;", "⧁"), ("ograve;", "ò"), ("ograve", "ò"), ("ogon;", "\u02db")]⟩,
    ⟨'o', 'h', [("ohm;", "Ω"), ("ohbar;", "⦵")]⟩,
    ⟨'o', 'i', [("oint;", "∮")]⟩,
    ⟨'o', 'l', [("olt;", "⧀"), ("oline;", "‾"), ("olcross;", "⦻"), ("olcir;", "⦾"),
      ("olarr;", "↺")]⟩,
    ⟨'o', 'm', [("ominus;", "⊖"), ("omid;", "⦶"), ("omicron;", "ο"), ("omega;", "ω"),
      ("omacr;", "ō")]⟩,
    ⟨'o', 'o', [("oopf;", "𝕠")]⟩,
    ⟨'o', 'p', [("oplus;", "⊕"), ("operp;", "⦹"), ("opar;", "⦷")]⟩,
    ⟨'o', 'r', [("orv;", "⩛"), ("orslope;", "⩗"), ("oror;", "⩖"), ("origof;", "⊶"), ("ordm;", "º"),
      ("ordm", "º"), ("ordf;", "ª"), ("ordf", "ª"), ("orderof;", "ℴ"), ("order;", "ℴ"),
      ("ord;", "⩝"), ("orarr;", "↻"), ("or;", "∨")]⟩,
    ⟨'o', 's', [("osol;", "⊘"), ("oslash;", "ø"), ("oslash", "ø"), ("oscr;", "ℴ")]⟩,
    ⟨'o', 't', [("otimesas;", "⨶"), ("otimes;", "⊗"), ("otilde;", "õ"), ("otilde", "õ")]⟩,
    ⟨'o', 'u', [("ouml;", "ö"), ("ouml", "ö")]⟩,
    ⟨'o', 'v', [("ovbar;", "⌽")]⟩,
    ⟨'p', 'a', [("part;", "∂"), ("parsl;", "⫽"), ("parsim;", "⫳"), ("parallel;", "∥"),
      ("para;", "¶"), ("para", "¶"), ("par;", "∥")]⟩,
    ⟨'p', 'c', [("pcy;", "п")]⟩,
    ⟨'p', 'e', [("pertenk;", "‱"), ("perp;", "⊥"), ("permil;", "‰"), ("period;", "."),
      ("percnt;", "%")]⟩,
    ⟨'p', 'f', [("pfr;", "𝔭")]⟩,
    ⟨'p', 'h', [("phone;", "☎"), ("phmmat;", "ℳ"), ("phiv;", "ϕ"), ("phi;", "φ")]⟩,
    ⟨'p', 'i', [("piv;", "ϖ"), ("pitchfork;", "⋔"), ("pi;", "π")]⟩,
    ⟨'p', 'l', [("plustwo;", "⨧"), ("plussim;", "⨦"), ("plusmn;", "±"), ("plusmn", "±"),
      ("pluse;", "⩲"), ("plusdu;", "⨥"), ("plusdo;", "∔"), ("pluscir;", "⨢"), ("plusb;", "⊞"),
      ("plusacir;", "⨣"), ("plus;", "+"), ("plankv;", "ℏ"), ("planckh;", "ℎ"), ("planck;", "ℏ")]⟩,
    ⟨'p', 'm', [("pm;", "±")]⟩,
    ⟨'p', 'o', [("pound;", "£"), ("pound", "£"), ("popf;", "𝕡"), ("pointint;", "⨕")]⟩,
    ⟨'p', 'r', [("prurel;", "⊰"), ("prsim;", "≾"), ("propto;", "∝"), ("prop;", "∝"),
      ("profsurf;", "⌓"), ("profline;", "⌒"), ("profalar;", "⌮"), ("prod;", "∏"), ("prnsim;", "⋨"),
      ("prnap;", "⪹"), ("prnE;", "⪵"), ("primes;", "ℙ"), ("prime;", "′"), ("precsim;", "≾"),
      ("precnsim;", "⋨"), ("precneqq;", "⪵"), ("precnapprox;", "⪹"), ("preceq;", "⪯"),
      ("preccurlyeq;", "≼"), ("precapprox;", "⪷"), ("prec;", "≺"), ("pre;", "⪯"), ("prcue;", "≼"),
      ("prap;", "⪷"), ("prE;", "⪳"), ("pr;", "≺")]⟩,
    ⟨'p', 's', [("psi;", "ψ"), ("pscr;", "𝓅")]⟩,
    ⟨'p', 'u', [("puncsp;", "\u2008")]⟩,
    ⟨'q', 'f', [("qfr;", "𝔮")]⟩,
    ⟨'q', 'i', [("qint;", "⨌")]⟩,
    ⟨'q', 'o', [("qopf;", "𝕢")]⟩,
    ⟨'q', 'p', [("qprime;", "⁗")]⟩,
    ⟨'q', 's', [("qscr;", "𝓆")]⟩,
    ⟨'q', 'u', [("quot;", "\x22"), ("quot", "\x22"), ("questeq;", "≟"), ("quest;", "?"),
      ("quatint;", "⨖"), ("quaternions;", "ℍ")]⟩,
    ⟨'r', 'A', [("rAtail;", "⤜"), ("rArr;", "⇒"), ("rAarr;", "⇛")]⟩,
    ⟨'r', 'B', [("rBarr;", "⤏")]⟩,
    ⟨'r', 'H', [("rHar;", "⥤")]⟩,
    ⟨'r', 'a', [("rationals;", "ℚ"), ("ratio;", "∶"), ("ratail;", "⤚"), ("rarrw;", "↝"),
      ("rarrtl;", "↣"), ("rarrsim;", "⥴"), ("rarrpl;", "⥅"), ("rarrlp;", "↬"), ("rarrhk;", "↪"),
      ("rarrfs;", "⤞"), ("rarrc;", "⤳"), ("rarrbfs;", "⤠"), ("rarrb;", "⇥"), ("rarrap;", "⥵"),
      ("rarr;", "→"), ("raquo;", "»"), ("raquo", "»"), ("rangle;", "⟩"), ("range;", "⦥"),
      ("rangd;", "⦒"), ("rang;", "⟩"), ("raemptyv;", "⦳"), ("radic;", "√"), ("racute;", "ŕ"),
      ("race;", "∽\u0331")]⟩,
    ⟨'r', 'b', [("rbrkslu;", "⦐"), ("rbrksld;", "⦎"), ("rbrke;", "⦌"), ("rbrack;", "]"),
      ("rbrace;", "\x7d"), ("rbbrk;", "❳"), ("rbarr;", "⤍")]⟩,
    ⟨'r', 'c', [("rcy;", "р"), ("rcub;", "\x7d"), ("rceil;", "⌉"), ("rcedil;", "ŗ"),
      ("rcaron;", "ř")]⟩,
    ⟨'r', 'd', [("rdsh;", "↳"), ("rdquor;", "”"), ("rdquo;", "”"), ("rdldhar;", "⥩"),
      ("rdca;", "⤷")]⟩,
    ⟨'r', 'e', [("reg;", "®"), ("reg", "®"), ("rect;", "▭"), ("reals;", "ℝ"), ("realpart;", "ℜ"),
      ("realine;", "ℛ"), ("real;", "ℜ")]⟩,
    ⟨'r', 'f', [("rfr;", "𝔯"), ("rfloor;", "⌋"), ("rfisht;", "⥽")]⟩,
    ⟨'r', 'h', [("rhov;", "ϱ"), ("rho;", "ρ"), ("rharul;", "⥬"), ("rharu;", "⇀"), ("rhard;", "⇁")]⟩,
    ⟨'r', 'i', [("risingdotseq;", "≓"), ("ring;", "\u02da"), ("rightthreetimes;", "⋌"),
      ("rightsquigarrow;", "↝"), ("rightrightarrows;", "⇉"), ("rightleftharpoons;", "⇌"),
      ("rightleftarrows;", "⇄"), ("rightharpoonup;", "⇀"), ("rightharpoondown;", "⇁"),
      ("rightarrowtail;", "↣"), ("rightarrow;", "→")]⟩,
    ⟨'r', 'l', [("rlm;", "\u200f"), ("rlhar;", "⇌"), ("rlarr;", "⇄")]⟩,
    ⟨'r', 'm', [("rmoustache;", "⎱"), ("rmoust;", "⎱")]⟩,
    ⟨'r', 'n', [("rnmid;", "⫮")]⟩,
    ⟨'r', 'o', [("rotimes;", "⨵"), ("roplus;", "⨮"), ("ropf;", "𝕣"), ("ropar;", "⦆"),
      ("robrk;", "⟧"), ("roarr;", "⇾"), ("roang;", "⟭")]⟩,
    ⟨'r', 'p', [("rppolint;", "⨒"), ("rpargt;", "⦔"), ("rpar;", ")")]⟩,
    ⟨'r', 'r', [("rrarr;", "⇉")]⟩,
    ⟨'r', 's', [("rsquor;", "’"), ("rsquo;", "’"), ("rsqb;", "]"), ("rsh;", "↱"), ("rscr;", "𝓇"),
      ("rsaquo;", "›")]⟩,
    ⟨'r', 't', [("rtriltri;", "⧎"), ("rtrif;", "▸"), ("rtrie;", "⊵"), ("rtri;", "▹"),
      ("rtimes;", "⋊"), ("rthree;", "⋌")]⟩,
    ⟨'r', 'u', [("ruluhar;", "⥨")]⟩,
    ⟨'r', 'x', [("rx;", "℞")]⟩]

/-- The names that begin with a small letter from s to z. -/
def smallSToZ : List Section :=
  [⟨'s', 'a', [("sacute;", "ś")]⟩,
    ⟨'s', 'b', [("sbquo;", "‚")]⟩,
    ⟨'s', 'c', [("scy;", "с"), ("scsim;", "≿"), ("scpolint;", "⨓"), ("scnsim;", "⋩"),
      ("scnap;", "⪺"), ("scnE;", "⪶"), ("scirc;", "ŝ"), ("scedil;", "ş"), ("sce;", "⪰"),
      ("sccue;", "≽"), ("scaron;", "š"), ("scap;", "⪸"), ("scE;", "⪴"), ("sc;", "≻")]⟩,
    ⟨'s', 'd', [("sdote;", "⩦"), ("sdotb;", "⊡"), ("sdot;", "⋅")]⟩,
    ⟨'s', 'e', [("sext;", "✶"), ("setmn;", "∖"), ("setminus;", "∖"), ("seswar;", "⤩"),
      ("semi;", ";"), ("sect;", "§"), ("sect", "§"), ("searrow;", "↘"), ("searr;", "↘"),
      ("searhk;", "⤥"), ("seArr;", "⇘")]⟩,
    ⟨'s', 'f', [("sfrown;", "⌢"), ("sfr;", "𝔰")]⟩,
    ⟨'s', 'h', [("shy;", "\u00ad"), ("shy", "\u00ad"), ("shortparallel;", "∥"), ("shortmid;", "∣"),
      ("shcy;", "ш"), ("shchcy;", "щ"), ("sharp;", "♯")]⟩,
    ⟨'s', 'i', [("simrarr;", "⥲"), ("simplus;", "⨤"), ("simne;", "≆"), ("simlE;", "⪟"),
      ("siml;", "⪝"), ("simgE;", "⪠"), ("simg;", "⪞"), ("simeq;", "≃"), ("sime;", "≃"),
      ("simdot;", "⩪"), ("sim;", "∼"), ("sigmav;", "ς"), ("sigmaf;", "ς"), ("sigma;", "σ")]⟩,
    ⟨'s', 'l', [("slarr;", "←")]⟩,
    ⟨'s', 'm', [("smtes;", "⪬\ufe00"), ("smte;", "⪬"), ("smt;", "⪪"), ("smile;", "⌣"),
      ("smid;", "∣"), ("smeparsl;", "⧤"), ("smashp;", "⨳"), ("smallsetminus;", "∖")]⟩,
    ⟨'s', 'o', [("sopf;", "𝕤"), ("solbar;", "⌿"), ("solb;", "⧄"), ("sol;", "/"), ("softcy;", "ь")]⟩,
    ⟨'s', 'p', [("spar;", "∥"), ("spadesuit;", "♠"), ("spades;", "♠")]⟩,
    ⟨'s', 'q', [("squf;", "▪"), ("squarf;", "▪"), ("square;", "□"), ("squ;", "□"),
      ("sqsupseteq;", "⊒"), ("sqsupset;", "⊐"), ("sqsupe;", "⊒"), ("sqsup;", "⊐"),
      ("sqsubseteq;", "⊑"), ("sqsubset;", "⊏"), ("sqsube;", "⊑"), ("sqsub;", "⊏"),
      ("sqcups;", "⊔\ufe00"), ("sqcup;", "⊔"), ("sqcaps;", "⊓\ufe00"), ("sqcap;", "⊓")]⟩,
    ⟨'s', 'r', [("srarr;", "→")]⟩,
    ⟨'s', 's', [("sstarf;", "⋆"), ("ssmile;", "⌣"), ("ssetmn;", "∖"), ("sscr;", "𝓈")]⟩,
    ⟨'s', 't', [("strns;", "\u00af"), ("straightphi;", "ϕ"), ("straightepsilon;", "ϵ"),
      ("starf;", "★"), ("star;", "☆")]⟩,
    ⟨'s', 'u', [("supsup;", "⫖"), ("supsub;", "⫔"), ("supsim;", "⫈"), ("supsetneqq;", "⫌"),
      ("supsetneq;", "⊋"), ("supseteqq;", "⫆"), ("supseteq;", "⊇"), ("supset;", "⊃"),
      ("supplus;", "⫀"), ("supne;", "⊋"), ("supnE;", "⫌"), ("supmult;", "⫂"), ("suplarr;", "⥻"),
      ("suphsub;", "⫗"), ("suphsol;", "⟉"), ("supedot;", "⫄"), ("supe;", "⊇"), ("supdsub;", "⫘"),
      ("supdot;", "⪾"), ("supE;", "⫆"), ("sup;", "⊃"), ("sup3;", "³"), ("sup3", "³"),
      ("sup2;", "²"), ("sup2", "²"), ("sup1;", "¹"), ("sup1", "¹"), ("sung;", "♪"), ("sum;", "∑"),
      ("succsim;", "≿"), ("succnsim;", "⋩"), ("succneqq;", "⪶"), ("succnapprox;", "⪺"),
      ("succeq;", "⪰"), ("succcurlyeq;", "≽"), ("succapprox;", "⪸"), ("succ;", "≻"),
      ("subsup;", "⫓"), ("subsub;", "⫕"), ("subsim;", "⫇"), ("subsetneqq;", "⫋"),
      ("subsetneq;", "⊊"), ("subseteqq;", "⫅"), ("subseteq;", "⊆"), ("subset;", "⊂"),
      ("subrarr;", "⥹"), ("subplus;", "⪿"), ("subne;", "⊊"), ("subnE;", "⫋"), ("submult;", "⫁"),
      ("subedot;", "⫃"), ("sube;", "⊆"), ("subdot;", "⪽"), ("subE;", "⫅"), ("sub;", "⊂")]⟩,
    ⟨'s', 'w', [("swnwar;", "⤪"), ("swarrow;", "↙"), ("swarr;", "↙"), ("swarhk;", "⤦"),
      ("swArr;", "⇙")]⟩,
    ⟨'s', 'z', [("szlig;", "ß"), ("szlig", "ß")]⟩,
    ⟨'t', 'a', [("tau;", "τ"), ("target;", "⌖")]⟩,
    ⟨'t', 'b', [("tbrk;", "⎴")]⟩,
    ⟨'t', 'c', [("tcy;", "т"), ("tcedil;", "ţ"), ("tcaron;", "ť")]⟩,
    ⟨'t', 'd', [("tdot;", "\u20db")]⟩,
    ⟨'t', 'e', [("telrec;", "⌕")]⟩,
    ⟨'t', 'f', [("tfr;", "𝔱")]⟩,
    ⟨'t', 'h', [("thorn;", "þ"), ("thorn", "þ"), ("thksim;", "∼"), ("thkap;", "≈"),
      ("thinsp;", "\u2009"), ("thicksim;", "∼"), ("thickapprox;", "≈"), ("thetav;", "ϑ"),
      ("thetasym;", "ϑ"), ("theta;", "θ"), ("therefore;", "∴"), ("there4;", "∴")]⟩,
    ⟨'t', 'i', [("tint;", "∭"), ("timesd;", "⨰"), ("timesbar;", "⨱"), ("timesb;", "⊠"),
      ("times;", "×"), ("times", "×"), ("tilde;", "\u02dc")]⟩,
    ⟨'t', 'o', [("tosa;", "⤩"), ("topfork;", "⫚"), ("topf;", "𝕥"), ("topcir;", "⫱"),
      ("topbot;", "⌶"), ("top;", "⊤"), ("toea;", "⤨")]⟩,
    ⟨'t', 'p', [("tprime;", "‴")]⟩,
    ⟨'t', 'r', [("trpezium;", "⏢"), ("tritime;", "⨻"), ("trisb;", "⧍"), ("triplus;", "⨹"),
      ("triminus;", "⨺"), ("trie;", "≜"), ("tridot;", "◬"), ("trianglerighteq;", "⊵"),
      ("triangleright;", "▹"), ("triangleq;", "≜"), ("trianglelefteq;", "⊴"),
      ("triangleleft;", "◃"), ("triangledown;", "▿"), ("triangle;", "▵"), ("trade;", "™")]⟩,
    ⟨'t', 's', [("tstrok;", "ŧ"), ("tshcy;", "ћ"), ("tscy;", "ц"), ("tscr;", "𝓉")]⟩,
    ⟨'t', 'w', [("twoheadrightarrow;", "↠"), ("twoheadleftarrow;", "↞"), ("twixt;", "≬")]⟩,
    ⟨'u', 'A', [("uArr;", "⇑")]⟩,
    ⟨'u', 'H', [("uHar;", "⥣")]⟩,
    ⟨'u', 'a', [("uarr;", "↑"), ("uacute;", "ú"), ("uacute", "ú")]⟩,
    ⟨'u', 'b', [("ubreve;", "ŭ"), ("ubrcy;", "ў")]⟩,
    ⟨'u', 'c', [("ucy;", "у"), ("ucirc;", "û"), ("ucirc", "û")]⟩,
    ⟨'u', 'd', [("udhar;", "⥮"), ("udblac;", "ű"), ("udarr;", "⇅")]⟩,
    ⟨'u', 'f', [("ufr;", "𝔲"), ("ufisht;", "⥾")]⟩,
    ⟨'u', 'g', [("ugrave;", "ù"), ("ugrave", "ù")]⟩,
    ⟨'u', 'h', [("uhblk;", "▀"), ("uharr;", "↾"), ("uharl;", "↿")]⟩,
    ⟨'u', 'l', [("ultri;", "◸"), ("ulcrop;", "⌏"), ("ulcorner;", "⌜"), ("ulcorn;", "⌜")]⟩,
    ⟨'u', 'm', [("uml;", "\u00a8"), ("uml", "\u00a8"), ("umacr;", "ū")]⟩,
    ⟨'u', 'o', [("uopf;", "𝕦"), ("uogon;", "ų")]⟩,
    ⟨'u', 'p', [("upuparrows;", "⇈"), ("upsilon;", "υ"), ("upsih;", "ϒ"), ("upsi;", "υ"),
      ("uplus;", "⊎"), ("upharpoonright;", "↾"), ("upharpoonleft;", "↿"), ("updownarrow;", "↕"),
      ("uparrow;", "↑")]⟩,
    ⟨'u', 'r', [("urtri;", "◹"), ("uring;", "ů"), ("urcrop;", "⌎"), ("urcorner;", "⌝"),
      ("urcorn;", "⌝")]⟩,
    ⟨'u', 's', [("uscr;", "𝓊")]⟩,
    ⟨'u', 't', [("utrif;", "▴"), ("utri;", "▵"), ("utilde;", "ũ"), ("utdot;", "⋰")]⟩,
    ⟨'u', 'u', [("uuml;", "ü"), ("uuml", "ü"), ("uuarr;", "⇈")]⟩,
    ⟨'u', 'w', [("uwangle;", "⦧")]⟩,
    ⟨'v', 'A', [("vArr;", "⇕")]⟩,
    ⟨'v', 'B', [("vBarv;", "⫩"), ("vBar;", "⫨")]⟩,
    ⟨'v', 'D', [("vDash;", "⊨")]⟩,
    ⟨'v', 'a', [("vartriangleright;", "⊳"), ("vartriangleleft;", "⊲"), ("vartheta;", "ϑ"),
      ("varsupsetneqq;", "⫌\ufe00"), ("varsupsetneq;", "⊋\ufe00"), ("varsubsetneqq;", "⫋\ufe00"),
      ("varsubsetneq;", "⊊\ufe00"), ("varsigma;", "ς"), ("varrho;", "ϱ"), ("varr;", "↕"),
      ("varpropto;", "∝"), ("varpi;", "ϖ"), ("varphi;", "ϕ"), ("varnothing;", "∅"),
      ("varkappa;", "ϰ"), ("varepsilon;", "ϵ"), ("vangrt;", "⦜")]⟩,
    ⟨'v', 'c', [("vcy;", "в")]⟩,
    ⟨'v', 'd', [("vdash;", "⊢")]⟩,
    ⟨'v', 'e', [("vert;", "|"), ("verbar;", "|"), ("vellip;", "⋮"), ("veeeq;", "≚"),
      ("veebar;", "⊻"), ("vee;", "∨")]⟩,
    ⟨'v', 'f', [("vfr;", "𝔳")]⟩,
    ⟨'v', 'l', [("vltri;", "⊲")]⟩,
    ⟨'v', 'n', [("vnsup;", "⊃\u20d2"), ("vnsub;", "⊂\u20d2")]⟩,
    ⟨'v', 'o', [("vopf;", "𝕧")]⟩,
    ⟨'v', 'p', [("vprop;", "∝")]⟩,
    ⟨'v', 'r', [("vrtri;", "⊳")]⟩,
    ⟨'v', 's', [("vsupne;", "⊋\ufe00"), ("vsupnE;", "⫌\ufe00"), ("vsubne;", "⊊\ufe00"),
      ("vsubnE;", "⫋\ufe00"), ("vscr;", "𝓋")]⟩,
    ⟨'v', 'z', [("vzigzag;", "⦚")]⟩,
    ⟨'w', 'c', [("wcirc;", "ŵ")]⟩,
    ⟨'w', 'e', [("weierp;", "℘"), ("wedgeq;", "≙"), ("wedge;", "∧"), ("wedbar;", "⩟")]⟩,
    ⟨'w', 'f', [("wfr;", "𝔴")]⟩,
    ⟨'w', 'o', [("wopf;", "𝕨")]⟩,
    ⟨'w', 'p', [("wp;", "℘")]⟩,
    ⟨'w', 'r', [("wreath;", "≀"), ("wr;", "≀")]⟩,
    ⟨'w', 's', [("wscr;", "𝓌")]⟩,
    ⟨'x', 'c', [("xcup;", "⋃"), ("xcirc;", "◯"), ("xcap;", "⋂")]⟩,
    ⟨'x', 'd', [("xdtri;", "▽")]⟩,
    ⟨'x', 'f', [("xfr;", "𝔵")]⟩,
    ⟨'x', 'h', [("xharr;", "⟷"), ("xhArr;", "⟺")]⟩,
    ⟨'x', 'i', [("xi;", "ξ")]⟩,
    ⟨'x', 'l', [("xlarr;", "⟵"), ("xlArr;", "⟸")]⟩,
    ⟨'x', 'm', [("xmap;", "⟼")]⟩,
    ⟨'x', 'n', [("xnis;", "⋻")]⟩,
    ⟨'x', 'o', [("xotime;", "⨂"), ("xoplus;", "⨁"), ("xopf;", "𝕩"), ("xodot;", "⨀")]⟩,
    ⟨'x', 'r', [("xrarr;", "⟶"), ("xrArr;", "⟹")]⟩,
    ⟨'x', 's', [("xsqcup;", "⨆"), ("xscr;", "𝓍")]⟩,
    ⟨'x', 'u', [("xutri;", "△"), ("xuplus;", "⨄")]⟩,
    ⟨'x', 'v', [("xvee;", "⋁")]⟩,
    ⟨'x', 'w', [("xwedge;", "⋀")]⟩,
    ⟨'y', 'a', [("yacy;", "я"), ("yacute;", "ý"), ("yacute", "ý")]⟩,
    ⟨'y', 'c', [("ycy;", "ы"), ("ycirc;", "ŷ")]⟩,
    ⟨'y', 'e', [("yen;", "¥"), ("yen", "¥")]⟩,
    ⟨'y', 'f', [("yfr;", "𝔶")]⟩,
    ⟨'y', 'i', [("yicy;", "ї")]⟩,
    ⟨'y', 'o', [("yopf;", "𝕪")]⟩,
    ⟨'y', 's', [("yscr;", "𝓎")]⟩,
    ⟨'y', 'u', [("yuml;", "ÿ"), ("yuml", "ÿ"), ("yucy;", "ю")]⟩,
    ⟨'z', 'a', [("zacute;", "ź")]⟩,
    ⟨'z', 'c', [("zcy;", "з"), ("zcaron;", "ž")]⟩,
    ⟨'z', 'd', [("zdot;", "ż")]⟩,
    ⟨'z', 'e', [("zeta;", "ζ"), ("zeetrf;", "ℨ")]⟩,
    ⟨'z', 'f', [("zfr;", "𝔷")]⟩,
    ⟨'z', 'h', [("zhcy;", "ж")]⟩,
    ⟨'z', 'i', [("zigrarr;", "⇝")]⟩,
    ⟨'z', 'o', [("zopf;", "𝕫")]⟩,
    ⟨'z', 's', [("zscr;", "𝓏")]⟩,
    ⟨'z', 'w', [("zwnj;", "\u200c"), ("zwj;", "\u200d")]⟩]

/-- All names.  In its section a name comes before every name that it starts with. -/
def sections : List Section :=
  capitalsAToL ++ capitalsMToZ ++ smallAToD ++ smallEToK ++ smallLToN ++ smallOToR ++ smallSToZ

end Reference
end Html
end LiveMarkup
