import Partials.Text.CharRun

/-!
# The case of letters

Unicode's `Lowercase` and `Uppercase` properties, in version 16. The tables hold what lies beyond
ASCII.
-/

namespace Partials

def lowercaseRuns : List CharRun := [
  .all 0xAA 0xAA, .all 0xB5 0xB5, .all 0xBA 0xBA, .all 0xDF 0xF6, .all 0xF8 0xFF,
  .second 0x101 0x137, .second 0x138 0x148, .second 0x149 0x177, .second 0x17A 0x17E,
  .all 0x17F 0x180, .second 0x183 0x185, .all 0x188 0x188, .all 0x18C 0x18D, .all 0x192 0x192,
  .all 0x195 0x195, .all 0x199 0x19B, .all 0x19E 0x19E, .second 0x1A1 0x1A5, .second 0x1A8 0x1AA,
  .second 0x1AB 0x1AD, .all 0x1B0 0x1B0, .second 0x1B4 0x1B6, .all 0x1B9 0x1BA, .all 0x1BD 0x1BF,
  .all 0x1C6 0x1C6, .all 0x1C9 0x1C9, .second 0x1CC 0x1DC, .second 0x1DD 0x1EF, .all 0x1F0 0x1F0,
  .second 0x1F3 0x1F5, .second 0x1F9 0x233, .all 0x234 0x239, .all 0x23C 0x23C, .all 0x23F 0x240,
  .all 0x242 0x242, .second 0x247 0x24F, .all 0x250 0x293, .all 0x295 0x2B8, .all 0x2C0 0x2C1,
  .all 0x2E0 0x2E4, .all 0x345 0x345, .second 0x371 0x373, .all 0x377 0x377, .all 0x37A 0x37D,
  .all 0x390 0x390, .all 0x3AC 0x3CE, .all 0x3D0 0x3D1, .all 0x3D5 0x3D7, .second 0x3D9 0x3EF,
  .all 0x3F0 0x3F3, .all 0x3F5 0x3F5, .all 0x3F8 0x3F8, .all 0x3FB 0x3FC, .all 0x430 0x45F,
  .second 0x461 0x481, .second 0x48B 0x4BF, .second 0x4C2 0x4CE, .second 0x4CF 0x52F,
  .all 0x560 0x588, .all 0x10D0 0x10FA, .all 0x10FC 0x10FF, .all 0x13F8 0x13FD, .all 0x1C80 0x1C88,
  .all 0x1C8A 0x1C8A, .all 0x1D00 0x1DBF, .second 0x1E01 0x1E95, .all 0x1E96 0x1E9D,
  .second 0x1E9F 0x1EFF, .all 0x1F00 0x1F07, .all 0x1F10 0x1F15, .all 0x1F20 0x1F27,
  .all 0x1F30 0x1F37, .all 0x1F40 0x1F45, .all 0x1F50 0x1F57, .all 0x1F60 0x1F67,
  .all 0x1F70 0x1F7D, .all 0x1F80 0x1F87, .all 0x1F90 0x1F97, .all 0x1FA0 0x1FA7,
  .all 0x1FB0 0x1FB4, .all 0x1FB6 0x1FB7, .all 0x1FBE 0x1FBE, .all 0x1FC2 0x1FC4,
  .all 0x1FC6 0x1FC7, .all 0x1FD0 0x1FD3, .all 0x1FD6 0x1FD7, .all 0x1FE0 0x1FE7,
  .all 0x1FF2 0x1FF4, .all 0x1FF6 0x1FF7, .all 0x2071 0x2071, .all 0x207F 0x207F,
  .all 0x2090 0x209C, .all 0x210A 0x210A, .all 0x210E 0x210F, .all 0x2113 0x2113,
  .all 0x212F 0x212F, .all 0x2134 0x2134, .all 0x2139 0x2139, .all 0x213C 0x213D,
  .all 0x2146 0x2149, .all 0x214E 0x214E, .all 0x2170 0x217F, .all 0x2184 0x2184,
  .all 0x24D0 0x24E9, .all 0x2C30 0x2C5F, .all 0x2C61 0x2C61, .all 0x2C65 0x2C66,
  .second 0x2C68 0x2C6C, .second 0x2C71 0x2C73, .second 0x2C74 0x2C76, .all 0x2C77 0x2C7D,
  .second 0x2C81 0x2CE3, .all 0x2CE4 0x2CE4, .second 0x2CEC 0x2CEE, .all 0x2CF3 0x2CF3,
  .all 0x2D00 0x2D25, .all 0x2D27 0x2D27, .all 0x2D2D 0x2D2D, .second 0xA641 0xA66D,
  .second 0xA681 0xA69B, .all 0xA69C 0xA69D, .second 0xA723 0xA72F, .all 0xA730 0xA731,
  .second 0xA733 0xA76F, .all 0xA770 0xA778, .second 0xA77A 0xA77C, .second 0xA77F 0xA787,
  .second 0xA78C 0xA78E, .second 0xA791 0xA793, .all 0xA794 0xA795, .second 0xA797 0xA7A9,
  .all 0xA7AF 0xA7AF, .second 0xA7B5 0xA7C3, .second 0xA7C8 0xA7CA, .all 0xA7CD 0xA7CD,
  .second 0xA7D1 0xA7DB, .all 0xA7F2 0xA7F4, .second 0xA7F6 0xA7F8, .all 0xA7F9 0xA7FA,
  .all 0xAB30 0xAB5A, .all 0xAB5C 0xAB69, .all 0xAB70 0xABBF, .all 0xFB00 0xFB06,
  .all 0xFB13 0xFB17, .all 0xFF41 0xFF5A, .all 0x10428 0x1044F, .all 0x104D8 0x104FB,
  .all 0x10597 0x105A1, .all 0x105A3 0x105B1, .all 0x105B3 0x105B9, .all 0x105BB 0x105BC,
  .all 0x10780 0x10780, .all 0x10783 0x10785, .all 0x10787 0x107B0, .all 0x107B2 0x107BA,
  .all 0x10CC0 0x10CF2, .all 0x10D70 0x10D85, .all 0x118C0 0x118DF, .all 0x16E60 0x16E7F,
  .all 0x1D41A 0x1D433, .all 0x1D44E 0x1D454, .all 0x1D456 0x1D467, .all 0x1D482 0x1D49B,
  .all 0x1D4B6 0x1D4B9, .second 0x1D4BB 0x1D4BD, .all 0x1D4BE 0x1D4C3, .all 0x1D4C5 0x1D4CF,
  .all 0x1D4EA 0x1D503, .all 0x1D51E 0x1D537, .all 0x1D552 0x1D56B, .all 0x1D586 0x1D59F,
  .all 0x1D5BA 0x1D5D3, .all 0x1D5EE 0x1D607, .all 0x1D622 0x1D63B, .all 0x1D656 0x1D66F,
  .all 0x1D68A 0x1D6A5, .all 0x1D6C2 0x1D6DA, .all 0x1D6DC 0x1D6E1, .all 0x1D6FC 0x1D714,
  .all 0x1D716 0x1D71B, .all 0x1D736 0x1D74E, .all 0x1D750 0x1D755, .all 0x1D770 0x1D788,
  .all 0x1D78A 0x1D78F, .all 0x1D7AA 0x1D7C2, .all 0x1D7C4 0x1D7C9, .all 0x1D7CB 0x1D7CB,
  .all 0x1DF00 0x1DF09, .all 0x1DF0B 0x1DF1E, .all 0x1DF25 0x1DF2A, .all 0x1E030 0x1E06D,
  .all 0x1E922 0x1E943]

def uppercaseRuns : List CharRun := [
  .all 0xC0 0xD6, .all 0xD8 0xDE, .second 0x100 0x136, .second 0x139 0x147, .second 0x14A 0x178,
  .second 0x179 0x17D, .all 0x181 0x182, .second 0x184 0x186, .second 0x187 0x189,
  .all 0x18A 0x18B, .all 0x18E 0x191, .all 0x193 0x194, .all 0x196 0x198, .all 0x19C 0x19D,
  .all 0x19F 0x1A0, .second 0x1A2 0x1A6, .second 0x1A7 0x1A9, .second 0x1AC 0x1AE,
  .second 0x1AF 0x1B1, .all 0x1B2 0x1B3, .second 0x1B5 0x1B7, .all 0x1B8 0x1B8, .all 0x1BC 0x1BC,
  .all 0x1C4 0x1C4, .all 0x1C7 0x1C7, .all 0x1CA 0x1CA, .second 0x1CD 0x1DB, .second 0x1DE 0x1EE,
  .all 0x1F1 0x1F1, .second 0x1F4 0x1F6, .all 0x1F7 0x1F8, .second 0x1FA 0x232, .all 0x23A 0x23B,
  .all 0x23D 0x23E, .second 0x241 0x243, .all 0x244 0x246, .second 0x248 0x24E,
  .second 0x370 0x372, .all 0x376 0x376, .all 0x37F 0x37F, .second 0x386 0x388, .all 0x389 0x38A,
  .second 0x38C 0x38E, .second 0x38F 0x391, .all 0x392 0x3A1, .all 0x3A3 0x3AB, .all 0x3CF 0x3CF,
  .all 0x3D2 0x3D4, .second 0x3D8 0x3EE, .all 0x3F4 0x3F4, .second 0x3F7 0x3F9, .all 0x3FA 0x3FA,
  .all 0x3FD 0x42F, .second 0x460 0x480, .second 0x48A 0x4C0, .second 0x4C1 0x4CD,
  .second 0x4D0 0x52E, .all 0x531 0x556, .all 0x10A0 0x10C5, .all 0x10C7 0x10C7,
  .all 0x10CD 0x10CD, .all 0x13A0 0x13F5, .all 0x1C89 0x1C89, .all 0x1C90 0x1CBA,
  .all 0x1CBD 0x1CBF, .second 0x1E00 0x1E94, .second 0x1E9E 0x1EFE, .all 0x1F08 0x1F0F,
  .all 0x1F18 0x1F1D, .all 0x1F28 0x1F2F, .all 0x1F38 0x1F3F, .all 0x1F48 0x1F4D,
  .second 0x1F59 0x1F5F, .all 0x1F68 0x1F6F, .all 0x1FB8 0x1FBB, .all 0x1FC8 0x1FCB,
  .all 0x1FD8 0x1FDB, .all 0x1FE8 0x1FEC, .all 0x1FF8 0x1FFB, .all 0x2102 0x2102,
  .all 0x2107 0x2107, .all 0x210B 0x210D, .all 0x2110 0x2112, .all 0x2115 0x2115,
  .all 0x2119 0x211D, .second 0x2124 0x212A, .all 0x212B 0x212D, .all 0x2130 0x2133,
  .all 0x213E 0x213F, .all 0x2145 0x2145, .all 0x2160 0x216F, .all 0x2183 0x2183,
  .all 0x24B6 0x24CF, .all 0x2C00 0x2C2F, .second 0x2C60 0x2C62, .all 0x2C63 0x2C64,
  .second 0x2C67 0x2C6D, .all 0x2C6E 0x2C70, .all 0x2C72 0x2C72, .all 0x2C75 0x2C75,
  .all 0x2C7E 0x2C80, .second 0x2C82 0x2CE2, .second 0x2CEB 0x2CED, .all 0x2CF2 0x2CF2,
  .second 0xA640 0xA66C, .second 0xA680 0xA69A, .second 0xA722 0xA72E, .second 0xA732 0xA76E,
  .second 0xA779 0xA77D, .second 0xA77E 0xA786, .second 0xA78B 0xA78D, .second 0xA790 0xA792,
  .second 0xA796 0xA7AA, .all 0xA7AB 0xA7AE, .all 0xA7B0 0xA7B4, .second 0xA7B6 0xA7C4,
  .all 0xA7C5 0xA7C7, .second 0xA7C9 0xA7CB, .all 0xA7CC 0xA7CC, .all 0xA7D0 0xA7D0,
  .second 0xA7D6 0xA7DC, .all 0xA7F5 0xA7F5, .all 0xFF21 0xFF3A, .all 0x10400 0x10427,
  .all 0x104B0 0x104D3, .all 0x10570 0x1057A, .all 0x1057C 0x1058A, .all 0x1058C 0x10592,
  .all 0x10594 0x10595, .all 0x10C80 0x10CB2, .all 0x10D50 0x10D65, .all 0x118A0 0x118BF,
  .all 0x16E40 0x16E5F, .all 0x1D400 0x1D419, .all 0x1D434 0x1D44D, .all 0x1D468 0x1D481,
  .second 0x1D49C 0x1D49E, .all 0x1D49F 0x1D49F, .all 0x1D4A2 0x1D4A2, .all 0x1D4A5 0x1D4A6,
  .all 0x1D4A9 0x1D4AC, .all 0x1D4AE 0x1D4B5, .all 0x1D4D0 0x1D4E9, .all 0x1D504 0x1D505,
  .all 0x1D507 0x1D50A, .all 0x1D50D 0x1D514, .all 0x1D516 0x1D51C, .all 0x1D538 0x1D539,
  .all 0x1D53B 0x1D53E, .all 0x1D540 0x1D544, .all 0x1D546 0x1D546, .all 0x1D54A 0x1D550,
  .all 0x1D56C 0x1D585, .all 0x1D5A0 0x1D5B9, .all 0x1D5D4 0x1D5ED, .all 0x1D608 0x1D621,
  .all 0x1D63C 0x1D655, .all 0x1D670 0x1D689, .all 0x1D6A8 0x1D6C0, .all 0x1D6E2 0x1D6FA,
  .all 0x1D71C 0x1D734, .all 0x1D756 0x1D76E, .all 0x1D790 0x1D7A8, .all 0x1D7CA 0x1D7CA,
  .all 0x1E900 0x1E921, .all 0x1F130 0x1F149, .all 0x1F150 0x1F169, .all 0x1F170 0x1F189]

def isLowercase (c : Char) : Bool :=
  if c.toNat < 0x80 then c.isLower else lowercaseRuns.any (·.holds c.toNat)

def isUppercase (c : Char) : Bool :=
  if c.toNat < 0x80 then c.isUpper else uppercaseRuns.any (·.holds c.toNat)

end Partials
